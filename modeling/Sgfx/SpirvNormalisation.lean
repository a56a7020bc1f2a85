import Sgfx.SpirvCompat

/-!
# Normalised modules

A module that `naga24Spirv` returns is well formed again: no id is defined twice, and all are below
its bound.  A second pass changes nothing.

## Main Definitions

* `Normalises` — what replaces an instruction
* `Normalised` — the module that is returned

## Main Results

* `hoist_types` — the types at the front
* `naga24_normalises`
-/

namespace Sgfx.SpirvCompat

open Vulkan.Spirv

/-- What replaces an instruction: a signed input is declared unsigned, and what is loaded from it is
converted to the result and the type of the load. -/
inductive Normalises (code : List (List UInt32)) (hoisted : Hoisted) (i : List UInt32) :
    List (List UInt32) → Prop
  | dropped (h : isDropped i = true) : Normalises code hoisted i []
  | hoisted (h : i ∈ hoisted.types) : Normalises code hoisted i []
  | input (op : opcode i = 59) (long : 4 ≤ i.length) (h : i.getD 2 0 ∈ drawInputs code) :
      Normalises code hoisted i [i.set 1 hoisted.pointer]
  | load (id : UInt32) (op : opcode i = 61) (long : 4 ≤ i.length)
      (h : i.getD 3 0 ∈ drawInputs code) :
      Normalises code hoisted i
        [(i.set 1 hoisted.uint).set 2 id, emit 124 [i.getD 1 0, i.getD 2 0, id]]
  | kept (undropped : isDropped i = false) (unhoisted : i ∉ hoisted.types)
      (input : ¬ (opcode i = 59 ∧ i.getD 2 0 ∈ drawInputs code))
      (load : ¬ (opcode i = 61 ∧ 4 ≤ i.length ∧ i.getD 3 0 ∈ drawInputs code)) :
      Normalises code hoisted i [i]

/-- The ids of declared types. -/
def typeIds (code : List (List UInt32)) : List UInt32 :=
  code.flatMap fun i => if 19 ≤ opcode i ∧ opcode i ≤ 38 then i[1]?.toList else []

/-- A module, and what is returned for it.  Every instruction is in its place but for those that are
dropped, the types that moved to the front, and the signed inputs and their loads. -/
structure Normalised (g : Dialect) (words : List UInt32) (code : List (List UInt32))
    (out : List UInt32) (code' : List (List UInt32)) (hoisted : Hoisted) (pieces : List Patch) :
    Prop where
  framed : instructions out = .ok code'
  header : out.take 5 = (words.take 5).set 3 (out.getD 3 0)
  numbered : g.Numbered (out.getD 3 0) code'
  fresh : ∀ id ∈ g.results code', id ∈ g.results code ∨ words.getD 3 0 ≤ id
  typesOnce : (typeIds code').Nodup
  types : hoisted.types = if drawInputs code = [] then []
    else [emit 21 [hoisted.uint, 32, 0], emit 32 [hoisted.pointer, 1, hoisted.uint]]
  whole : code' = pieces.flatMap Patch.all
  inserted : pieces.flatMap Patch.inserted = hoisted.types
  insertions : List.Forall₂ (fun i piece => piece.inserted ≠ [] → isType i = true) code pieces
  bodies : List.Forall₂ (fun i piece => Normalises code hoisted i piece.body) code pieces
  again : naga24Spirv out = .ok out

/-! ## Types -/

section Types

variable {g : Dialect} {code : List (List UInt32)} {bound bound' : UInt32}

theorem fresh_eq_ok {id next : UInt32} (h : fresh bound = .ok (id, next)) :
    id = bound ∧ next.toNat = bound.toNat + 1 := by
  obtain ⟨sum, hsum, h⟩ := except_bind_eq_ok.mp h
  cases h
  rw [okOr_eq_ok, checkedAdd32] at hsum
  split at hsum
  · rename_i fits
    cases hsum
    refine ⟨rfl, ?_⟩
    rw [UInt32.toNat_add]
    exact Nat.mod_eq_of_lt fits
  · cases hsum

/-- A type that moves to the front: one of the module, or a new one. -/
structure Placed (code : List (List UInt32)) (bound : UInt32) (type : List UInt32) (id : UInt32)
    (bound' : UInt32) : Prop where
  old_or_new : (type ∈ code ∧ bound' = bound) ∨ (id = bound ∧ bound'.toNat = bound.toNat + 1)

theorem Placed.le {type : List UInt32} {id : UInt32} (h : Placed code bound type id bound') :
    bound.toNat ≤ bound'.toNat := by
  rcases h.old_or_new with ⟨_, rfl⟩ | ⟨_, next⟩
  · exact Nat.le_refl _
  · omega

theorem hoistUint_eq_ok {first : List UInt32} {uint : UInt32} (framed : ∀ i ∈ code, Framed i)
    (h : hoistUint code bound = .ok (first, uint, bound')) :
    first = emit 21 [uint, 32, 0] ∧ Placed code bound first uint bound' := by
  unfold hoistUint at h
  split at h
  · rename_i i found
    have test := List.find?_some found
    have member := List.mem_of_find?_eq_some found
    simp only [Bool.and_eq_true, beq_iff_eq] at test
    obtain ⟨⟨⟨op, length⟩, width⟩, sign⟩ := test
    have written := eq_emit_of_length (framed i member) length
    rw [op, width, sign] at written
    cases h
    exact ⟨written, ⟨.inl ⟨member, rfl⟩⟩⟩
  · obtain ⟨⟨id, next⟩, new, h⟩ := except_bind_eq_ok.mp h
    cases h
    exact ⟨rfl, ⟨.inr (fresh_eq_ok new)⟩⟩

theorem hoistPointer_eq_ok {second : List UInt32} {uint pointer : UInt32}
    (framed : ∀ i ∈ code, Framed i)
    (h : hoistPointer code uint bound = .ok (second, pointer, bound')) :
    second = emit 32 [pointer, 1, uint] ∧ Placed code bound second pointer bound' := by
  unfold hoistPointer at h
  split at h
  · rename_i i found
    have test := List.find?_some found
    have member := List.mem_of_find?_eq_some found
    simp only [Bool.and_eq_true, beq_iff_eq] at test
    obtain ⟨⟨⟨op, length⟩, storage⟩, type⟩ := test
    have written := eq_emit_of_length (framed i member) length
    rw [op, storage, type] at written
    cases h
    exact ⟨written, ⟨.inl ⟨member, rfl⟩⟩⟩
  · obtain ⟨⟨id, next⟩, new, h⟩ := except_bind_eq_ok.mp h
    cases h
    exact ⟨rfl, ⟨.inr (fresh_eq_ok new)⟩⟩

/-- The types at the front: none, or the unsigned integers and the pointers to inputs of them. -/
inductive HoistedTypes (code : List (List UInt32)) (bound : UInt32) (hoisted : Hoisted) : Prop
  | absent (inputs : drawInputs code = []) (types : hoisted.types = [])
      (same : hoisted.bound = bound)
  | present (inputs : drawInputs code ≠ []) (middle : UInt32)
      (types : hoisted.types =
        [emit 21 [hoisted.uint, 32, 0], emit 32 [hoisted.pointer, 1, hoisted.uint]])
      (first : Placed code bound (emit 21 [hoisted.uint, 32, 0]) hoisted.uint middle)
      (second : Placed code middle (emit 32 [hoisted.pointer, 1, hoisted.uint]) hoisted.pointer
        hoisted.bound)

theorem hoist_types {hoisted : Hoisted} (framed : ∀ i ∈ code, Framed i)
    (h : hoist code bound = .ok hoisted) : HoistedTypes code bound hoisted := by
  unfold hoist at h
  split at h
  · rename_i inputs
    cases h
    exact .absent inputs rfl rfl
  · rename_i inputs
    obtain ⟨⟨first, uint, middle⟩, one, h⟩ := except_bind_eq_ok.mp h
    obtain ⟨⟨second, pointer, last⟩, two, h⟩ := except_bind_eq_ok.mp h
    cases h
    obtain ⟨rfl, one⟩ := hoistUint_eq_ok framed one
    obtain ⟨rfl, two⟩ := hoistPointer_eq_ok framed two
    exact .present inputs middle rfl one two

end Types

/-! ## One turn -/

section Turn

variable {g : Dialect} {code : List (List UInt32)} {words i : List UInt32} {bound : UInt32}
  {hoisted : Hoisted} {s s' : State} {piece : Patch}

theorem naga24Turn_eq_ok (h : naga24Turn code hoisted s i = .ok (piece, s')) :
    (isDropped i = true ∧ piece = ⟨[], []⟩ ∧ s' = s) ∨
      (isDropped i = false ∧ piece.inserted = (insertTypes s i).1 ∧
        s'.types = (insertTypes s i).2.types ∧
        rewriteInput code hoisted s.bound i = .ok (piece.body, s'.bound)) := by
  unfold naga24Turn at h
  split at h
  · rename_i dropped
    cases h
    exact .inl ⟨dropped, rfl, rfl⟩
  · rename_i undropped
    obtain ⟨⟨body, next⟩, rewritten, h⟩ := except_bind_eq_ok.mp h
    cases h
    have same : (insertTypes s i).2.bound = s.bound := by
      unfold insertTypes
      split <;> rfl
    exact .inr ⟨Bool.eq_false_iff.mpr undropped, rfl, rfl, same ▸ rewritten⟩

/-- What the four branches write. -/
theorem rewriteInput_cases {body : List (List UInt32)} {next : UInt32}
    (h : rewriteInput code hoisted bound i = .ok (body, next)) :
    (isHoisted code hoisted i = true ∧ body = [] ∧ next = bound) ∨
    (isHoisted code hoisted i = false ∧
      ((opcode i = 59 ∧ 4 ≤ i.length ∧ i.getD 2 0 ∈ drawInputs code ∧
        body = [i.set 1 hoisted.pointer] ∧ next = bound) ∨
      (opcode i = 61 ∧ 4 ≤ i.length ∧ i.getD 3 0 ∈ drawInputs code ∧
        body = [(i.set 1 hoisted.uint).set 2 bound, emit 124 [i.getD 1 0, i.getD 2 0, bound]] ∧
        next.toNat = bound.toNat + 1) ∨
      (¬ (opcode i = 59 ∧ i.getD 2 0 ∈ drawInputs code) ∧
        ¬ (opcode i = 61 ∧ 4 ≤ i.length ∧ i.getD 3 0 ∈ drawInputs code) ∧
        ¬ (opcode i = 59 ∧ i.length < 4) ∧ body = [i] ∧ next = bound))) := by
  unfold rewriteInput at h
  split at h
  · rename_i moved
    cases h
    exact .inl ⟨moved, rfl, rfl⟩
  · rename_i stays
    refine .inr ⟨Bool.eq_false_iff.mpr stays, ?_⟩
    split at h
    · cases h
    · rename_i long
      split at h
      · rename_i input
        cases h
        have long : 4 ≤ i.length := Nat.le_of_not_lt fun short => long ⟨input.1, short⟩
        exact .inl ⟨input.1, long, input.2, rfl, rfl⟩
      · rename_i other
        split at h
        · rename_i load
          obtain ⟨⟨id, after⟩, new, h⟩ := except_bind_eq_ok.mp h
          cases h
          obtain ⟨rfl, next⟩ := fresh_eq_ok new
          exact .inr (.inl ⟨load.1, load.2.1, load.2.2, rfl, next⟩)
        · rename_i unloaded
          cases h
          exact .inr (.inr ⟨other, unloaded, long, rfl, rfl⟩)

/-- The types at the front have the ids that moved declarations have. -/
theorem isHoisted_iff (types : HoistedTypes code bound hoisted) (numbered : g.Numbered bound code)
    (member : i ∈ code) : isHoisted code hoisted i = true ↔ i ∈ hoisted.types := by
  cases types with
  | absent inputs types same =>
    rw [types, isHoisted, inputs]
    exact ⟨fun h => absurd h Bool.false_ne_true, fun h => absurd h List.not_mem_nil⟩
  | present inputs middle types first second =>
    rw [types, isHoisted, List.isEmpty_eq_false_iff.mpr inputs, Bool.not_false, Bool.true_and,
      Bool.or_eq_true, Bool.and_eq_true, Bool.and_eq_true, beq_iff_eq, beq_iff_eq, beq_iff_eq,
      beq_iff_eq, List.mem_cons, List.mem_singleton]
    -- A declaration of the module with the id of a type at the front is that type.
    have same : ∀ {type : List UInt32} {id lo hi : UInt32}, Placed code lo type id hi →
        bound.toNat ≤ lo.toNat → g.resultOf type = some id → g.resultOf i = some id → i = type := by
      intro type id lo hi placed above defines again
      rcases placed.old_or_new with ⟨old, _⟩ | ⟨rfl, _⟩
      · exact numbered.eq_of_result member old again defines
      · have below := UInt32.lt_iff_toNat_lt.mp (numbered.result_lt member again)
        omega
    have result : ∀ {id : UInt32}, 19 ≤ opcode i → opcode i ≤ 38 → i[1]? = some id →
        g.resultOf i = some id := by
      intro id low high word
      obtain ⟨long, word⟩ := List.getElem?_eq_some_iff.mp word
      rw [(Dialect.result_type low high long).1, List.getD_eq_getElem _ _ long, word]
    constructor
    · rintro (⟨op, word⟩ | ⟨op, word⟩)
      · have first_result : g.resultOf (emit 21 [hoisted.uint, 32, 0]) = some hoisted.uint :=
          Dialect.resultOf_emit_type (by decide) (by decide) (by decide : 2 + 2 < 65536)
        exact .inl (same first (Nat.le_refl _) first_result (result (by rw [op]; decide)
          (by rw [op]; decide) word))
      · have second_result : g.resultOf (emit 32 [hoisted.pointer, 1, hoisted.uint]) =
            some hoisted.pointer :=
          Dialect.resultOf_emit_type (by decide) (by decide) (by decide : 2 + 2 < 65536)
        exact .inr (same second first.le second_result (result (by rw [op]; decide)
          (by rw [op]; decide) word))
    · rintro (rfl | rfl)
      · exact .inl ⟨opcode_emit_three (by decide), rfl⟩
      · exact .inr ⟨opcode_emit_three (by decide), rfl⟩

/-- A turn drops, moves, declares anew, converts or keeps. -/
theorem naga24Turn_normalises (types : HoistedTypes code bound hoisted)
    (numbered : g.Numbered bound code) (member : i ∈ code)
    (h : naga24Turn code hoisted s i = .ok (piece, s')) :
    Normalises code hoisted i piece.body := by
  rcases naga24Turn_eq_ok h with ⟨dropped, rfl, _⟩ | ⟨undropped, _, _, rewritten⟩
  · exact .dropped dropped
  · rcases rewriteInput_cases rewritten with ⟨moved, body, _⟩ | ⟨stays, rest⟩
    · rw [body]
      exact .hoisted ((isHoisted_iff types numbered member).mp moved)
    · rcases rest with ⟨op, long, input, body, _⟩ | ⟨op, long, input, body, _⟩ |
        ⟨other, unloaded, _, body, _⟩
      · rw [body]
        exact .input op long input
      · rw [body]
        exact .load s.bound op long input
      · rw [body]
        refine .kept undropped (fun there => ?_) other unloaded
        rw [(isHoisted_iff types numbered member).mpr there] at stays
        cases stays

/-- The ids that an instruction may define: none, if it moved to the front. -/
def names (g : Dialect) (hoisted : Hoisted) (i : List UInt32) : List UInt32 :=
  if i ∈ hoisted.types then [] else (g.resultOf i).toList

/-- A turn defines what the instruction does, and the result of a load by a new id. -/
theorem naga24Turn_supplies (types : HoistedTypes code bound hoisted)
    (numbered : g.Numbered bound code) (member : i ∈ code) (above : bound.toNat ≤ s.bound.toNat)
    (h : naga24Turn code hoisted s i = .ok (piece, s')) :
    s.bound.toNat ≤ s'.bound.toNat ∧ (g.results piece.body).Nodup ∧
      ∀ id ∈ g.results piece.body, id ∈ names g hoisted i ∨
        (s.bound.toNat ≤ id.toNat ∧ id.toNat < s'.bound.toNat) := by
  rcases naga24Turn_eq_ok h with ⟨_, rfl, rfl⟩ | ⟨_, _, _, rewritten⟩
  · exact ⟨Nat.le_refl _, List.nodup_nil, fun id h => absurd h List.not_mem_nil⟩
  · rcases rewriteInput_cases rewritten with ⟨_, body, next⟩ | ⟨stays, rest⟩
    · rw [body, next]
      exact ⟨Nat.le_refl _, List.nodup_nil, fun id h => absurd h List.not_mem_nil⟩
    · have stays : names g hoisted i = (g.resultOf i).toList := by
        refine if_neg fun there => ?_
        rw [(isHoisted_iff types numbered member).mpr there] at stays
        cases stays
      rcases rest with ⟨op, long, _, body, next⟩ | ⟨op, long, _, body, next⟩ |
        ⟨_, _, _, body, next⟩
      · have same : g.resultOf (i.set 1 hoisted.pointer) = g.resultOf i := by
          obtain ⟨first, type, id, storage, init, rfl⟩ := exists_words long
          have value : opcode (first :: type :: id :: storage :: init) ∈ valueOpcodes := by
            rw [op]
            decide
          exact (g.value _ value _ _ _).1.trans (g.value _ value _ _ _).1.symm
        rw [body, next]
        refine ⟨Nat.le_refl _, Dialect.nodup_results_singleton, fun id h => .inl ?_⟩
        rwa [Dialect.results_singleton, same, ← stays] at h
      · have old : g.resultOf i = some (i.getD 2 0) :=
          (Dialect.result_value (by rw [op]; decide) (by omega)).1
        have below := UInt32.lt_iff_toNat_lt.mp (numbered.result_lt member old)
        have first : g.resultOf ((i.set 1 hoisted.uint).set 2 s.bound) = some s.bound := by
          obtain ⟨first, type, id, pointer, access, rfl⟩ := exists_words long
          exact (g.value _ (by
            rw [opcode_set (by decide), opcode_set (by decide), op]
            decide) hoisted.uint s.bound (pointer :: access)).1
        have second : g.resultOf (emit 124 [i.getD 1 0, i.getD 2 0, s.bound]) =
            some (i.getD 2 0) :=
          Dialect.resultOf_emit_value (by decide) (by decide : 1 + 3 < 65536)
        rw [body, next, Dialect.results_pair, first, second, stays, old]
        refine ⟨Nat.le_succ _, ?_, fun id h => ?_⟩
        · refine List.nodup_cons.mpr ⟨fun h => ?_, List.pairwise_singleton _ _⟩
          have same : s.bound = i.getD 2 0 := List.mem_singleton.mp h
          rw [same] at above
          omega
        · rcases List.mem_cons.mp h with rfl | h
          · exact .inr ⟨Nat.le_refl _, Nat.lt_succ_self _⟩
          · exact .inl h
      · rw [body, next]
        refine ⟨Nat.le_refl _, Dialect.nodup_results_singleton, fun id h => .inl ?_⟩
        rwa [Dialect.results_singleton, ← stays] at h

end Turn

/-! ## Inputs -/

section Inputs

variable {code : List (List UInt32)} {id : UInt32}

theorem mem_draws : id ∈ draws code ↔ ∃ i ∈ code, opcode i = 71 ∧ i.length = 4 ∧
    i.getD 2 0 = 11 ∧ i.getD 3 0 = 4426 ∧ i.getD 1 0 = id := by
  simp only [draws, List.mem_map, List.mem_filter, Bool.and_eq_true, beq_iff_eq, and_assoc]

theorem mem_signed : id ∈ signed code ↔ ∃ i ∈ code, opcode i = 21 ∧ i.length = 4 ∧
    i.getD 2 0 = 32 ∧ i.getD 3 0 = 1 ∧ i.getD 1 0 = id := by
  simp only [signed, List.mem_map, List.mem_filter, Bool.and_eq_true, beq_iff_eq, and_assoc]

theorem mem_signedPointers : id ∈ signedPointers code ↔ ∃ i ∈ code, opcode i = 32 ∧
    i.length = 4 ∧ i.getD 2 0 = 1 ∧ i.getD 3 0 ∈ signed code ∧ i.getD 1 0 = id := by
  simp only [signedPointers, List.mem_map, List.mem_filter, Bool.and_eq_true, beq_iff_eq,
    List.contains_iff_mem, and_assoc]

theorem mem_drawInputs : id ∈ drawInputs code ↔ ∃ i ∈ code, opcode i = 59 ∧ 4 ≤ i.length ∧
    i.getD 3 0 = 1 ∧ i.getD 2 0 ∈ draws code ∧ i.getD 1 0 ∈ signedPointers code ∧
    i.getD 2 0 = id := by
  simp only [drawInputs, List.mem_map, List.mem_filter, Bool.and_eq_true, beq_iff_eq,
    List.contains_iff_mem, decide_eq_true_eq, and_assoc]

/-- Capabilities, extensions and line records are dropped. -/
theorem isDropped_eq_false {i : List UInt32} {op : UInt32} (h : opcode i = op)
    (other : op ∉ [8, 10, 17, 317]) : isDropped i = false := by
  simp only [List.mem_cons, List.not_mem_nil, or_false, not_or] at other
  obtain ⟨line, extension, capability, noLine⟩ := other
  rw [isDropped, h, beq_false_of_ne line, beq_false_of_ne extension, beq_false_of_ne capability,
    beq_false_of_ne noLine]
  rfl

/-- A module with a signed input declares a type. -/
theorem exists_type (inputs : drawInputs code ≠ []) :
    ∃ i ∈ code, isType i = true ∧ isDropped i = false := by
  obtain ⟨id, rest, found⟩ := List.exists_cons_of_ne_nil inputs
  have member : id ∈ drawInputs code := found ▸ List.mem_cons_self
  obtain ⟨_, _, _, _, _, _, pointer, _⟩ := mem_drawInputs.mp member
  obtain ⟨i, member, op, _⟩ := mem_signedPointers.mp pointer
  refine ⟨i, member, ?_, isDropped_eq_false op (by decide)⟩
  rw [isType, op]
  rfl

end Inputs

/-! ## The whole module -/

section Run

variable {g : Dialect} {code : List (List UInt32)} {words out : List UInt32} {bound : UInt32}
  {hoisted : Hoisted} {t : State} {pieces : List Patch}

theorem naga24Spirv_eq_ok (h : naga24Spirv words = .ok out) :
    ∃ code hoisted pieces t, 5 ≤ words.length ∧ words.getD 0 0 = 0x07230203 ∧
      words.getD 3 0 ≠ 0 ∧ instructions words = .ok code ∧
      hoist code (words.getD 3 0) = .ok hoisted ∧
      transduce (naga24Turn code hoisted) ⟨hoisted.types, hoisted.bound⟩ code = .ok (pieces, t) ∧
      out = (words.take 5).set 3 t.bound ++ (pieces.flatMap Patch.all).flatten := by
  obtain ⟨_, header, h⟩ := except_bind_eq_ok.mp h
  rw [failIf_eq_ok, not_or, not_or, Nat.not_lt, ne_eq, not_not] at header
  obtain ⟨code, split, h⟩ := except_bind_eq_ok.mp h
  obtain ⟨hoisted, front, h⟩ := except_bind_eq_ok.mp h
  obtain ⟨⟨pieces, t⟩, run, h⟩ := except_bind_eq_ok.mp h
  cases h
  refine ⟨code, hoisted, pieces, t, header.1, header.2.1, header.2.2, ?_, front, run, rfl⟩
  rw [instructions, if_neg (Nat.not_lt.mpr header.1)]
  cases parsed : splitInstructions words.length (words.drop 5) with
  | error e =>
    rw [parsed] at split
    cases split
  | ok code =>
    rw [parsed] at split
    cases split
    rfl

/-- The types are written once, ahead of the first declaration of a type. -/
theorem naga24_inserted (types : HoistedTypes code bound hoisted)
    (run : transduce (naga24Turn code hoisted) ⟨hoisted.types, hoisted.bound⟩ code =
      .ok (pieces, t)) : pieces.flatMap Patch.inserted = hoisted.types := by
  obtain ⟨whole, before⟩ := transduce_invariant run
    (fun done pieces s => pieces.flatMap Patch.inserted ++ s.types = hoisted.types ∧
      (s.types ≠ [] → ∀ i ∈ done, isType i = true → isDropped i = true))
    ⟨List.nil_append _, fun _ i h => absurd h List.not_mem_nil⟩ (by
      rintro done i rest pieces s piece s' _ ⟨whole, before⟩ turned
      rw [List.flatMap_append, List.flatMap_singleton]
      rcases naga24Turn_eq_ok turned with ⟨dropped, rfl, rfl⟩ | ⟨_, inserted, later, _⟩
      · refine ⟨by rwa [List.append_nil], fun left j member type => ?_⟩
        rcases List.mem_append.mp member with member | member
        · exact before left j member type
        · rwa [List.mem_singleton.mp member]
      · rw [inserted, later]
        unfold insertTypes
        split
        · exact ⟨by rwa [List.append_nil], fun left => absurd rfl left⟩
        · rename_i other
          refine ⟨by rwa [List.append_nil], fun left j member type => ?_⟩
          rcases List.mem_append.mp member with member | member
          · exact before left j member type
          · exact absurd (List.mem_singleton.mp member ▸ type) other)
  have written : t.types = [] := by
    cases types with
    | absent inputs types same =>
      rw [types] at whole
      exact (List.append_eq_nil_iff.mp whole).2
    | present inputs middle types first second =>
      by_contra left
      obtain ⟨i, member, type, undropped⟩ := exists_type inputs
      rw [before left i member type] at undropped
      cases undropped
  rwa [written, List.append_nil] at whole

/-- Types are inserted only at declarations of types. -/
theorem naga24_sections (run : transduce (naga24Turn code hoisted) ⟨hoisted.types, hoisted.bound⟩
    code = .ok (pieces, t)) :
    List.Forall₂ (fun i piece => piece.inserted ≠ [] → isType i = true) code pieces := by
  refine (transduce_forall₂ run (fun _ _ => True) _ trivial ?_).1
  rintro done i rest s piece s' _ _ turned
  refine ⟨trivial, fun inserts => ?_⟩
  rcases naga24Turn_eq_ok turned with ⟨_, rfl, _⟩ | ⟨_, inserted, _, _⟩
  · exact absurd rfl inserts
  · by_contra other
    rw [inserted, insertTypes, if_neg other] at inserts
    exact inserts rfl

theorem naga24_bodies (types : HoistedTypes code bound hoisted) (numbered : g.Numbered bound code)
    (run : transduce (naga24Turn code hoisted) ⟨hoisted.types, hoisted.bound⟩ code =
      .ok (pieces, t)) :
    List.Forall₂ (fun i piece => Normalises code hoisted i piece.body) code pieces := by
  refine (transduce_forall₂ run (fun _ _ => True) _ trivial ?_).1
  rintro done i rest s piece s' whole _ turned
  have member : i ∈ code := whole ▸ List.mem_append_right _ List.mem_cons_self
  exact ⟨trivial, naga24Turn_normalises types numbered member turned⟩

/-! ### Ids -/

theorem HoistedTypes.le (types : HoistedTypes code bound hoisted) :
    bound.toNat ≤ hoisted.bound.toNat := by
  cases types with
  | absent inputs types same => exact Nat.le_of_eq (congrArg UInt32.toNat same.symm)
  | present inputs middle types first second => exact Nat.le_trans first.le second.le

/-- What is placed has an id below the bound that is left. -/
theorem Placed.lt {type : List UInt32} {id lo hi : UInt32} (placed : Placed code lo type id hi)
    (numbered : g.Numbered bound code) (above : bound.toNat ≤ lo.toNat)
    (defines : g.resultOf type = some id) : id.toNat < hi.toNat := by
  rcases placed.old_or_new with ⟨old, rfl⟩ | ⟨rfl, next⟩
  · have below := UInt32.lt_iff_toNat_lt.mp (numbered.result_lt old defines)
    omega
  · omega

theorem resultOf_uint (uint : UInt32) : g.resultOf (emit 21 [uint, 32, 0]) = some uint :=
  Dialect.resultOf_emit_type (by decide) (by decide) (by decide : 2 + 2 < 65536)

theorem resultOf_pointer (pointer uint : UInt32) :
    g.resultOf (emit 32 [pointer, 1, uint]) = some pointer :=
  Dialect.resultOf_emit_type (by decide) (by decide) (by decide : 2 + 2 < 65536)

/-- The two types are below the bound. -/
theorem HoistedTypes.ids_lt (types : HoistedTypes code bound hoisted)
    (numbered : g.Numbered bound code) (inputs : drawInputs code ≠ []) :
    hoisted.uint.toNat < hoisted.bound.toNat ∧ hoisted.pointer.toNat < hoisted.bound.toNat := by
  cases types with
  | absent empty _ _ => exact absurd empty inputs
  | present _ middle types first second =>
    have uint := first.lt numbered (Nat.le_refl _) (resultOf_uint _)
    exact ⟨Nat.lt_of_lt_of_le uint second.le, second.lt numbered first.le (resultOf_pointer _ _)⟩

/-- The types at the front define other ids than the instructions that are left. -/
theorem HoistedTypes.distinct (types : HoistedTypes code bound hoisted)
    (numbered : g.Numbered bound code) :
    (g.results hoisted.types ++ code.flatMap (names g hoisted)).Nodup ∧
      ∀ id ∈ g.results hoisted.types ++ code.flatMap (names g hoisted),
        id.toNat < hoisted.bound.toNat := by
  have part : (code.flatMap (names g hoisted)).Sublist (g.results code) := by
    refine List.Sublist.flatMap_right code fun i _ => ?_
    unfold names
    split
    · exact List.nil_sublist _
    · exact List.Sublist.refl _
  have old : ∀ id ∈ code.flatMap (names g hoisted), id.toNat < bound.toNat := by
    intro id member
    obtain ⟨i, member, defines⟩ := Dialect.mem_results.mp (part.subset member)
    exact UInt32.lt_iff_toNat_lt.mp (numbered.result_lt member defines)
  -- A type of the module is not left in its place.
  have apart : ∀ {type : List UInt32} {id lo hi : UInt32}, Placed code lo type id hi →
      bound.toNat ≤ lo.toNat → g.resultOf type = some id → type ∈ hoisted.types →
      id ∉ code.flatMap (names g hoisted) := by
    intro type id lo hi placed above defines front there
    rcases placed.old_or_new with ⟨mine, _⟩ | ⟨rfl, _⟩
    · obtain ⟨i, member, named⟩ := List.mem_flatMap.mp there
      unfold names at named
      split at named
      · exact absurd named List.not_mem_nil
      · rename_i stays
        have same := numbered.eq_of_result member mine (Option.mem_toList.mp named) defines
        exact stays (same ▸ front)
    · have below := old id there
      omega
  cases types with
  | absent inputs types same =>
    rw [types, same]
    exact ⟨part.nodup numbered.unique, old⟩
  | present inputs middle types first second =>
    have uint := first.lt numbered (Nat.le_refl _) (resultOf_uint _)
    have pointer := second.lt numbered first.le (resultOf_pointer _ _)
    have results : g.results hoisted.types = [hoisted.uint, hoisted.pointer] := by
      rw [types, Dialect.results_pair, resultOf_uint, resultOf_pointer]
      rfl
    have differ : hoisted.uint ≠ hoisted.pointer := by
      intro same
      rcases second.old_or_new with ⟨mine, _⟩ | ⟨new, _⟩
      · rcases first.old_or_new with ⟨theirs, _⟩ | ⟨new, _⟩
        · have again : g.resultOf (emit 32 [hoisted.pointer, 1, hoisted.uint]) =
              some hoisted.uint := (resultOf_pointer _ _).trans (congrArg some same.symm)
          have equal := numbered.eq_of_result theirs mine (resultOf_uint _) again
          have op := congrArg opcode equal
          rw [opcode_emit_three (by decide : (21 : UInt32) < 65536),
            opcode_emit_three (by decide : (32 : UInt32) < 65536)] at op
          exact absurd op (by decide)
        · have below := UInt32.lt_iff_toNat_lt.mp
            (numbered.result_lt mine (resultOf_pointer hoisted.pointer hoisted.uint))
          rw [← same, new] at below
          omega
      · rw [same, new] at uint
        omega
    rw [results]
    constructor
    · refine List.nodup_cons.mpr ⟨fun h => ?_, List.nodup_cons.mpr ⟨fun h => ?_, ?_⟩⟩
      · rcases List.mem_cons.mp h with same | h
        · exact differ same
        · exact apart first (Nat.le_refl _) (resultOf_uint _) (types ▸ List.mem_cons_self) h
      · exact apart second first.le (resultOf_pointer _ _)
          (types ▸ List.mem_cons_of_mem _ List.mem_cons_self) h
      · exact part.nodup numbered.unique
    · intro id member
      have above : bound.toNat ≤ hoisted.bound.toNat := Nat.le_trans first.le second.le
      rcases List.mem_cons.mp member with rfl | member
      · exact Nat.lt_of_lt_of_le uint second.le
      · rcases List.mem_cons.mp member with rfl | member
        · exact pointer
        · exact Nat.lt_of_lt_of_le (old id member) above

theorem naga24_supplied (types : HoistedTypes code bound hoisted)
    (numbered : g.Numbered bound code)
    (run : transduce (naga24Turn code hoisted) ⟨hoisted.types, hoisted.bound⟩ code =
      .ok (pieces, t)) :
    Supplied UInt32.toNat (names g hoisted) (fun piece : Patch => g.results piece.body)
      hoisted.bound.toNat code pieces t.bound.toNat :=
  transduce_supplied run (fun s => s.bound.toNat)
    fun _ member _ _ _ above turned =>
      naga24Turn_supplies types numbered member (Nat.le_trans types.le above) turned

/-- What replaces an instruction uses its ids, the types at the front, and what it defines. -/
theorem Normalises.uses {i j : List UInt32} {body : List (List UInt32)} {id : UInt32}
    (h : Normalises code hoisted i body) (member : j ∈ body) (use : id ∈ g.usesOf j) :
    id ∈ g.usesOf i ∨ id ∈ g.results body ∨
      (drawInputs code ≠ [] ∧ (id = hoisted.uint ∨ id = hoisted.pointer)) := by
  cases h with
  | dropped h => cases member
  | hoisted h => cases member
  | input op long h =>
    obtain rfl := List.mem_singleton.mp member
    obtain ⟨first, type, var, storage, init, rfl⟩ := exists_words long
    have inputs : drawInputs code ≠ [] := List.ne_nil_of_mem h
    rw [Dialect.uses_declaration ((opcode_set (by decide) _).trans op)
      (by rwa [List.length_set])] at use
    rw [Dialect.uses_declaration op long]
    rcases List.mem_cons.mp use with rfl | use
    · exact .inr (.inr ⟨inputs, .inr rfl⟩)
    · exact .inl (List.mem_cons_of_mem _ use)
  | load new op long h =>
    have inputs : drawInputs code ≠ [] := List.ne_nil_of_mem h
    rcases List.mem_cons.mp member with rfl | member
    · obtain ⟨first, type, var, pointer, access, rfl⟩ := exists_words long
      rw [Dialect.uses_load ((opcode_set (by decide) _).trans ((opcode_set (by decide) _).trans op))
        (by rwa [List.length_set, List.length_set])] at use
      rw [Dialect.uses_load op long]
      rcases List.mem_cons.mp use with rfl | use
      · exact .inr (.inr ⟨inputs, .inl rfl⟩)
      · exact .inl (List.mem_cons_of_mem _ use)
    · obtain rfl := List.mem_singleton.mp member
      rw [Dialect.usesOf_emit_three (by decide), g.oneOperand 124 (by decide)] at use
      rcases List.mem_cons.mp use with rfl | use
      · rw [Dialect.uses_load op long]
        exact .inl List.mem_cons_self
      · obtain rfl := List.mem_singleton.mp use
        obtain ⟨first, type, var, pointer, access, rfl⟩ := exists_words long
        have value : opcode (first :: type :: var :: pointer :: access) ∈ valueOpcodes := by
          rw [op]
          decide
        exact .inr (.inl (Dialect.mem_results_of_mem List.mem_cons_self
          (g.value _ value hoisted.uint id (pointer :: access)).1))
  | kept undropped unhoisted input load =>
    obtain rfl := List.mem_singleton.mp member
    exact .inl use

/-- All ids are below the bound that is left. -/
theorem naga24_bounded (types : HoistedTypes code bound hoisted)
    (numbered : g.Numbered bound code)
    (run : transduce (naga24Turn code hoisted) ⟨hoisted.types, hoisted.bound⟩ code =
      .ok (pieces, t)) :
    ∀ j ∈ pieces.flatMap Patch.all, ∀ id ∈ g.mentions j, id < t.bound := by
  have supplied := naga24_supplied types numbered run
  have last := supplied.le
  have front := types.le
  have distinct := (types.distinct numbered).2
  have bodies : ∀ piece ∈ pieces, ∀ id ∈ g.results piece.body, id.toNat < t.bound.toNat := by
    intro piece member id defined
    rcases supplied.mem id (List.mem_flatMap.mpr ⟨piece, member, defined⟩) with old | new
    · exact Nat.lt_of_lt_of_le (distinct id (List.mem_append_right _ old)) last
    · exact new.2
  have ids : drawInputs code ≠ [] → ∀ id, id = hoisted.uint ∨ id = hoisted.pointer →
      id.toNat < t.bound.toNat := by
    rintro inputs id (rfl | rfl)
    · exact Nat.lt_of_lt_of_le (types.ids_lt numbered inputs).1 last
    · exact Nat.lt_of_lt_of_le (types.ids_lt numbered inputs).2 last
  intro j member id mention
  rw [UInt32.lt_iff_toNat_lt]
  rcases mem_pieces.mp member with section_ | body
  · rw [naga24_inserted types run] at section_
    rcases Dialect.mem_mentions.mp mention with defines | use
    · exact Nat.lt_of_lt_of_le (distinct id (List.mem_append_left _
        (Dialect.mem_results_of_mem section_ defines))) last
    · cases types with
      | absent inputs types same => exact absurd (types ▸ section_) List.not_mem_nil
      | present inputs middle types first second =>
        rw [types] at section_
        rcases List.mem_cons.mp section_ with rfl | section_
        · rw [Dialect.usesOf_emit_three (by decide), g.number 21 (by decide)] at use
          cases use
        · obtain rfl := List.mem_singleton.mp section_
          rw [Dialect.usesOf_emit_three (by decide), g.pointer] at use
          exact ids inputs id (.inl (List.mem_singleton.mp use))
  · obtain ⟨piece, there, inside⟩ := List.mem_flatMap.mp body
    rcases Dialect.mem_mentions.mp mention with defines | use
    · exact bodies piece there id (Dialect.mem_results_of_mem inside defines)
    · obtain ⟨i, old, normalises⟩ := forall₂_mem_right (naga24_bodies types numbered run) there
      rcases normalises.uses inside use with mine | sibling | ⟨inputs, front⟩
      · have below := UInt32.lt_iff_toNat_lt.mp (numbered.use_lt old mine)
        omega
      · exact bodies piece there id sibling
      · exact ids inputs id front

theorem naga24_numbered (types : HoistedTypes code bound hoisted)
    (numbered : g.Numbered bound code)
    (run : transduce (naga24Turn code hoisted) ⟨hoisted.types, hoisted.bound⟩ code =
      .ok (pieces, t)) : g.Numbered t.bound (pieces.flatMap Patch.all) := by
  have distinct := types.distinct numbered
  rw [← naga24_inserted types run] at distinct
  exact .of_supplied (naga24_supplied types numbered run) distinct.1 distinct.2
    (naga24_bounded types numbered run)

/-- Every id that is defined was defined before, or is new. -/
theorem naga24_fresh (types : HoistedTypes code bound hoisted)
    (numbered : g.Numbered bound code)
    (run : transduce (naga24Turn code hoisted) ⟨hoisted.types, hoisted.bound⟩ code =
      .ok (pieces, t)) :
    ∀ id ∈ g.results (pieces.flatMap Patch.all), id ∈ g.results code ∨ bound ≤ id := by
  intro id defined
  rw [UInt32.le_iff_toNat_le]
  obtain ⟨j, member, defines⟩ := Dialect.mem_results.mp defined
  rcases mem_pieces.mp member with section_ | body
  · rw [naga24_inserted types run] at section_
    have placed : ∀ {type : List UInt32} {own lo hi : UInt32}, Placed code lo type own hi →
        bound.toNat ≤ lo.toNat → j = type → g.resultOf type = some own →
        id ∈ g.results code ∨ bound.toNat ≤ id.toNat := by
      rintro type own lo hi placed above rfl mine
      obtain rfl := Option.some.inj (mine.symm.trans defines)
      rcases placed.old_or_new with ⟨old, _⟩ | ⟨rfl, _⟩
      · exact .inl (Dialect.mem_results_of_mem old defines)
      · exact .inr above
    cases types with
    | absent inputs types same => exact absurd (types ▸ section_) List.not_mem_nil
    | present inputs middle types first second =>
      rw [types] at section_
      rcases List.mem_cons.mp section_ with same | section_
      · exact placed first (Nat.le_refl _) same (resultOf_uint _)
      · exact placed second first.le (List.mem_singleton.mp section_) (resultOf_pointer _ _)
  · obtain ⟨piece, there, inside⟩ := List.mem_flatMap.mp body
    rcases (naga24_supplied types numbered run).mem id (List.mem_flatMap.mpr
      ⟨piece, there, Dialect.mem_results_of_mem inside defines⟩) with old | new
    · obtain ⟨i, member, named⟩ := List.mem_flatMap.mp old
      unfold names at named
      split at named
      · exact absurd named List.not_mem_nil
      · exact .inl (Dialect.mem_results_of_mem member (Option.mem_toList.mp named))
    · exact .inr (Nat.le_trans types.le new.1)

theorem Normalises.framed {i j : List UInt32} {body : List (List UInt32)} (framed : Framed i)
    (h : Normalises code hoisted i body) (member : j ∈ body) : Framed j := by
  cases h with
  | dropped h => cases member
  | hoisted h => cases member
  | input op long h =>
    obtain rfl := List.mem_singleton.mp member
    exact framed.set (by decide) _
  | load new op long h =>
    rcases List.mem_cons.mp member with rfl | member
    · exact (framed.set (by decide) _).set (by decide) _
    · obtain rfl := List.mem_singleton.mp member
      exact framed_emit (by decide) (show 3 + 1 < 65536 by decide)
  | kept undropped unhoisted input load =>
    obtain rfl := List.mem_singleton.mp member
    exact framed

theorem HoistedTypes.framed {i : List UInt32} (types : HoistedTypes code bound hoisted)
    (member : i ∈ hoisted.types) : Framed i := by
  cases types with
  | absent inputs types same => exact absurd (types ▸ member) List.not_mem_nil
  | present inputs middle types first second =>
    rw [types] at member
    rcases List.mem_cons.mp member with rfl | member
    · exact framed_emit (by decide) (show 3 + 1 < 65536 by decide)
    · obtain rfl := List.mem_singleton.mp member
      exact framed_emit (by decide) (show 3 + 1 < 65536 by decide)

/-- No type is declared twice where no id is defined twice. -/
theorem typeIds_nodup (numbered : g.Numbered bound code) : (typeIds code).Nodup := by
  refine List.Sublist.nodup (List.Sublist.flatMap_right code fun i _ => ?_) numbered.unique
  split
  · rename_i type
    cases word : i[1]? with
    | none => exact List.nil_sublist _
    | some id =>
      obtain ⟨long, word⟩ := List.getElem?_eq_some_iff.mp word
      rw [(Dialect.result_type type.1 type.2 long).1, List.getD_eq_getElem _ _ long, word]
  · exact List.nil_sublist _

/-! ### A second pass -/

/-- An instruction of what is returned: a type at the front, an input declared anew, an instruction
of a converted load, or an old one. -/
theorem mem_normalised {j : List UInt32} (types : HoistedTypes code bound hoisted)
    (numbered : g.Numbered bound code)
    (run : transduce (naga24Turn code hoisted) ⟨hoisted.types, hoisted.bound⟩ code =
      .ok (pieces, t)) (member : j ∈ pieces.flatMap Patch.all) :
    j ∈ hoisted.types ∨
      (∃ i, opcode i = 59 ∧ 4 ≤ i.length ∧ i.getD 2 0 ∈ drawInputs code ∧
        j = i.set 1 hoisted.pointer) ∨
      (opcode j = 61 ∨ opcode j = 124) ∨
      (j ∈ code ∧ isDropped j = false ∧ ¬ (opcode j = 59 ∧ j.getD 2 0 ∈ drawInputs code)) := by
  rcases mem_pieces.mp member with section_ | body
  · exact .inl (naga24_inserted types run ▸ section_)
  · obtain ⟨piece, there, inside⟩ := List.mem_flatMap.mp body
    obtain ⟨i, old, normalises⟩ := forall₂_mem_right (naga24_bodies types numbered run) there
    generalize piece.body = body at inside normalises
    cases normalises with
    | dropped h => cases inside
    | hoisted h => cases inside
    | input op long h => exact .inr (.inl ⟨i, op, long, h, List.mem_singleton.mp inside⟩)
    | load new op long h =>
      refine .inr (.inr (.inl ?_))
      rcases List.mem_cons.mp inside with rfl | inside
      · exact .inl ((opcode_set (by decide) _).trans ((opcode_set (by decide) _).trans op))
      · obtain rfl := List.mem_singleton.mp inside
        exact .inr (opcode_emit_three (by decide))
    | kept undropped unhoisted input load =>
      obtain rfl := List.mem_singleton.mp inside
      exact .inr (.inr (.inr ⟨old, undropped, input⟩))

/-- No signed input is left: a pointer to signed integers is no pointer to unsigned ones. -/
theorem drawInputs_normalised (types : HoistedTypes code bound hoisted)
    (numbered : g.Numbered bound code)
    (run : transduce (naga24Turn code hoisted) ⟨hoisted.types, hoisted.bound⟩ code =
      .ok (pieces, t)) : drawInputs (pieces.flatMap Patch.all) = [] := by
  have unique := naga24_numbered types numbered run
  have origin := fun j => mem_normalised (j := j) types numbered run
  have front : ∀ {j : List UInt32}, j ∈ hoisted.types → j ∈ pieces.flatMap Patch.all := by
    intro j h
    exact mem_pieces.mpr (.inl (naga24_inserted types run ▸ h))
  -- The types at the front are unsigned.
  have unsigned : ∀ j ∈ hoisted.types, j = emit 21 [hoisted.uint, 32, 0] ∨
      j = emit 32 [hoisted.pointer, 1, hoisted.uint] := by
    intro j h
    cases types with
    | absent inputs types same => exact absurd (types ▸ h) List.not_mem_nil
    | present inputs middle types first second =>
      rw [types] at h
      rcases List.mem_cons.mp h with same | h
      · exact .inl same
      · exact .inr (List.mem_singleton.mp h)
  have pair : ∀ {j : List UInt32}, j ∈ hoisted.types →
      emit 21 [hoisted.uint, 32, 0] ∈ hoisted.types ∧
        emit 32 [hoisted.pointer, 1, hoisted.uint] ∈ hoisted.types := by
    intro j h
    cases types with
    | absent inputs types same => exact absurd (types ▸ h) List.not_mem_nil
    | present inputs middle types first second =>
      rw [types]
      exact ⟨List.mem_cons_self, List.mem_cons_of_mem _ List.mem_cons_self⟩
  have old : ∀ {j : List UInt32}, j ∈ pieces.flatMap Patch.all → opcode j ≠ 59 → opcode j ≠ 61 →
      opcode j ≠ 124 → j ∉ hoisted.types → j ∈ code := by
    intro j member variable_ load conversion there
    rcases origin j member with h | ⟨i, op, _, _, rfl⟩ | (h | h) | ⟨h, _⟩
    · exact absurd h there
    · exact absurd ((opcode_set (by decide) _).trans op) variable_
    · exact absurd h load
    · exact absurd h conversion
    · exact h
  have signed_old : ∀ id ∈ signed (pieces.flatMap Patch.all), id ∈ signed code := by
    intro id h
    obtain ⟨i, member, op, length, width, sign, rfl⟩ := mem_signed.mp h
    refine mem_signed.mpr ⟨i, old member ?_ ?_ ?_ ?_, op, length, width, sign, rfl⟩
    · rw [op]; decide
    · rw [op]; decide
    · rw [op]; decide
    · intro there
      rcases unsigned i there with rfl | rfl
      · exact absurd sign (show (0 : UInt32) ≠ 1 by decide)
      · rw [opcode_emit_three (by decide)] at op
        exact absurd op (by decide)
  have pointer_signed : hoisted.types ≠ [] →
      hoisted.pointer ∉ signedPointers (pieces.flatMap Patch.all) := by
    intro nonempty h
    obtain ⟨first, rest, found⟩ := List.exists_cons_of_ne_nil nonempty
    obtain ⟨uint, pointer⟩ := pair (found ▸ List.mem_cons_self : first ∈ hoisted.types)
    obtain ⟨i, member, op, length, _, type, id⟩ := mem_signedPointers.mp h
    obtain ⟨k, there, op', length', _, sign, id'⟩ := mem_signed.mp type
    have result : g.resultOf i = some hoisted.pointer :=
      (Dialect.result_type (by rw [op]; decide) (by rw [op]; decide) (by omega)).1.trans
        (congrArg some id)
    have same := unique.eq_of_result member (front pointer) result (resultOf_pointer _ _)
    rw [same] at id'
    have result' : g.resultOf k = some hoisted.uint :=
      (Dialect.result_type (by rw [op']; decide) (by rw [op']; decide) (by omega)).1.trans
        (congrArg some id')
    have same' := unique.eq_of_result there (front uint) result' (resultOf_uint _)
    rw [same'] at sign
    exact absurd sign (show (0 : UInt32) ≠ 1 by decide)
  have nonempty : drawInputs code ≠ [] → hoisted.types ≠ [] := by
    intro inputs
    cases types with
    | absent empty _ _ => exact absurd empty inputs
    | present _ _ types _ _ =>
      rw [types]
      exact List.cons_ne_nil _ _
  by_contra left
  obtain ⟨id, rest, found⟩ := List.exists_cons_of_ne_nil left
  have listed : id ∈ drawInputs (pieces.flatMap Patch.all) := found ▸ List.mem_cons_self
  obtain ⟨j, member, op, long, storage, draw, pointer, rfl⟩ := mem_drawInputs.mp listed
  rcases origin j member with h | ⟨i, _, _, input, rfl⟩ | (h | h) | ⟨h, _, other⟩
  · rcases unsigned j h with rfl | rfl
    · rw [opcode_emit_three (by decide)] at op
      exact absurd op (by decide)
    · rw [opcode_emit_three (by decide)] at op
      exact absurd op (by decide)
  · refine pointer_signed (nonempty (List.ne_nil_of_mem input)) ?_
    rw [List.length_set] at long
    obtain ⟨first, type, var, kind, init, rfl⟩ := exists_words long
    exact pointer
  · rw [op] at h
    exact absurd h (by decide)
  · rw [op] at h
    exact absurd h (by decide)
  · refine other ⟨op, mem_drawInputs.mpr ⟨j, h, op, long, storage, ?_, ?_, rfl⟩⟩
    · obtain ⟨i, member, op, length, builtin, index, id⟩ := mem_draws.mp draw
      refine mem_draws.mpr ⟨i, old member ?_ ?_ ?_ ?_, op, length, builtin, index, id⟩
      · rw [op]; decide
      · rw [op]; decide
      · rw [op]; decide
      · intro there
        rcases unsigned i there with rfl | rfl
        · rw [opcode_emit_three (by decide)] at op
          exact absurd op (by decide)
        · rw [opcode_emit_three (by decide)] at op
          exact absurd op (by decide)
    · obtain ⟨i, member', op', length, kind, type, id⟩ := mem_signedPointers.mp pointer
      refine mem_signedPointers.mpr
        ⟨i, old member' ?_ ?_ ?_ ?_, op', length, kind, signed_old _ type, id⟩
      · rw [op']; decide
      · rw [op']; decide
      · rw [op']; decide
      · intro there
        have nonempty : hoisted.types ≠ [] := List.ne_nil_of_mem there
        rcases unsigned i there with rfl | rfl
        · rw [opcode_emit_three (by decide)] at op'
          exact absurd op' (by decide)
        · refine pointer_signed nonempty ?_
          rw [← id] at pointer
          exact pointer

/-- What another pass keeps. -/
def Stable (j : List UInt32) : Prop := isDropped j = false ∧ ¬ (opcode j = 59 ∧ j.length < 4)

theorem stable_of_opcode {j : List UInt32} {op : UInt32} (h : opcode j = op)
    (other : op ∉ [8, 10, 17, 317]) (long : op ≠ 59) : Stable j :=
  ⟨isDropped_eq_false h other, fun short => long (h.symm.trans short.1)⟩

theorem naga24_stable (types : HoistedTypes code bound hoisted)
    (run : transduce (naga24Turn code hoisted) ⟨hoisted.types, hoisted.bound⟩ code =
      .ok (pieces, t)) : ∀ j ∈ pieces.flatMap Patch.all, Stable j := by
  have bodies : List.Forall₂ (fun _ piece => ∀ j ∈ piece.body, Stable j) code pieces := by
    refine (transduce_forall₂ run (fun _ _ => True) _ trivial ?_).1
    rintro done i rest s piece s' _ _ turned
    refine ⟨trivial, fun j member => ?_⟩
    rcases naga24Turn_eq_ok turned with ⟨_, rfl, _⟩ | ⟨undropped, _, _, rewritten⟩
    · cases member
    · rcases rewriteInput_cases rewritten with ⟨_, body, _⟩ | ⟨_, ⟨op, long, _, body, _⟩ |
        ⟨op, _, _, body, _⟩ | ⟨_, _, long, body, _⟩⟩
      · rw [body] at member
        cases member
      · rw [body, List.mem_singleton] at member
        have same : opcode j = 59 := by rw [member, opcode_set (by decide), op]
        refine ⟨isDropped_eq_false same (by decide), fun short => ?_⟩
        rw [member, List.length_set] at short
        omega
      · rw [body] at member
        rcases List.mem_cons.mp member with rfl | member
        · have same : opcode ((i.set 1 hoisted.uint).set 2 s.bound) = 61 := by
            rw [opcode_set (by decide), opcode_set (by decide), op]
          exact stable_of_opcode same (by decide) (by decide)
        · obtain rfl := List.mem_singleton.mp member
          exact stable_of_opcode (opcode_emit_three (by decide)) (by decide) (by decide)
      · rw [body, List.mem_singleton] at member
        rw [member]
        exact ⟨undropped, long⟩
  intro j member
  rcases mem_pieces.mp member with section_ | body
  · rw [naga24_inserted types run] at section_
    cases types with
    | absent inputs types same => exact absurd (types ▸ section_) List.not_mem_nil
    | present inputs middle types first second =>
      rw [types] at section_
      rcases List.mem_cons.mp section_ with rfl | section_
      · exact stable_of_opcode (opcode_emit_three (by decide)) (by decide) (by decide)
      · obtain rfl := List.mem_singleton.mp section_
        exact stable_of_opcode (opcode_emit_three (by decide)) (by decide) (by decide)
  · obtain ⟨piece, there, inside⟩ := List.mem_flatMap.mp body
    obtain ⟨i, _, stable⟩ := forall₂_mem_right bodies there
    exact stable j inside

/-- Without signed inputs, what is kept is all there is. -/
theorem naga24Turn_same {j : List UInt32} (inputs : drawInputs code = []) (stable : Stable j) :
    naga24Turn code ⟨[], 0, 0, bound⟩ ⟨[], bound⟩ j = .ok (⟨[], [j]⟩, ⟨[], bound⟩) := by
  have front : insertTypes ⟨[], bound⟩ j = ([], ⟨[], bound⟩) := by
    unfold insertTypes
    split <;> rfl
  have rest : rewriteInput code ⟨[], 0, 0, bound⟩ bound j = .ok ([j], bound) := by
    have stays : isHoisted code ⟨[], 0, 0, bound⟩ j = false := by
      unfold isHoisted
      rw [inputs]
      rfl
    unfold rewriteInput
    rw [stays, inputs, if_neg Bool.false_ne_true, if_neg stable.2,
      if_neg (fun h => List.not_mem_nil h.2), if_neg (fun h => List.not_mem_nil h.2.2)]
  unfold naga24Turn
  rw [stable.1, if_neg Bool.false_ne_true, front]
  show (rewriteInput code ⟨[], 0, 0, bound⟩ bound j >>= _) = _
  rw [rest]
  rfl

end Run

/-- A second pass changes nothing. -/
theorem naga24_again {out : List UInt32} {code : List (List UInt32)} (long : 5 ≤ out.length)
    (magic : out.getD 0 0 = 0x07230203) (bound : out.getD 3 0 ≠ 0)
    (framed : instructions out = .ok code) (inputs : drawInputs code = [])
    (stable : ∀ j ∈ code, Stable j) : naga24Spirv out = .ok out := by
  have split : splitInstructions out.length (out.drop 5) = .ok code := by
    rwa [instructions, if_neg (Nat.not_lt.mpr long)] at framed
  have front : hoist code (out.getD 3 0) = .ok ⟨[], 0, 0, out.getD 3 0⟩ := by
    rw [hoist, if_pos inputs]
  have turns : ∀ j ∈ code, naga24Turn code ⟨[], 0, 0, out.getD 3 0⟩ ⟨[], out.getD 3 0⟩ j =
      .ok (⟨[], [j]⟩, ⟨[], out.getD 3 0⟩) :=
    fun j member => naga24Turn_same inputs (stable j member)
  have run := transduce_same turns
  have same : ((code.map fun j => (⟨[], [j]⟩ : Patch)).flatMap Patch.all) = code := by
    rw [List.flatMap_map]
    exact List.flatMap_singleton' code
  have header : (out.take 5).set 3 (out.getD 3 0) = out.take 5 := by
    match out, long with
    | a :: b :: c :: d :: e :: rest, _ => rfl
  have whole := (framed_of_instructions framed).2.1
  have valid : ¬ (out.length < 5 ∨ out.getD 0 0 ≠ 0x07230203 ∨ out.getD 3 0 = 0) := by
    rintro (short | other | zero)
    · omega
    · exact other magic
    · exact bound zero
  unfold naga24Spirv
  rw [split, failIf, if_neg valid]
  show (hoist code (out.getD 3 0) >>= _) = _
  rw [front]
  show (transduce (naga24Turn code ⟨[], 0, 0, out.getD 3 0⟩) ⟨[], out.getD 3 0⟩ code >>= _) = _
  rw [run]
  show Except.ok ((out.take 5).set 3 (out.getD 3 0) ++
    ((code.map fun j => (⟨[], [j]⟩ : Patch)).flatMap Patch.all).flatten) = .ok out
  rw [same, header, ← whole]

/-- **Normalisation.**  For a well-framed module without repeated ids, what is returned is again such
a module, with a bound above its ids.  The result and the type of every load of a signed input are
kept, all other instructions stay in order, and a second pass changes nothing. -/
theorem naga24_normalises {g : Dialect} {words out : List UInt32} {code : List (List UInt32)}
    (framed : instructions words = .ok code) (numbered : g.Numbered (words.getD 3 0) code)
    (h : naga24Spirv words = .ok out) :
    ∃ code' hoisted pieces, Normalised g words code out code' hoisted pieces := by
  obtain ⟨code', hoisted, pieces, t, long, magic, nonzero, again, front, run, rfl⟩ :=
    naga24Spirv_eq_ok h
  obtain rfl := Except.ok.inj (framed.symm.trans again)
  obtain ⟨_, _, old⟩ := framed_of_instructions framed
  have types := hoist_types old front
  have inserted := naga24_inserted types run
  have bodies := naga24_bodies types numbered run
  have unique := naga24_numbered types numbered run
  have last := Nat.le_trans types.le (naga24_supplied types numbered run).le
  have new : ∀ j ∈ pieces.flatMap Patch.all, Framed j := by
    intro j member
    rcases mem_pieces.mp member with section_ | body
    · exact types.framed (inserted ▸ section_)
    · obtain ⟨piece, there, inside⟩ := List.mem_flatMap.mp body
      obtain ⟨i, member, normalises⟩ := forall₂_mem_right bodies there
      exact normalises.framed (old i member) inside
  obtain ⟨framed', take, bound, first, long'⟩ := instructions_bound long t.bound new
  refine ⟨pieces.flatMap Patch.all, hoisted, pieces, framed', bound.symm ▸ take,
    bound.symm ▸ unique, naga24_fresh types numbered run, typeIds_nodup unique, ?_, rfl, inserted,
    naga24_sections run, bodies, ?_⟩
  · cases types with
    | absent inputs types same => rw [types, if_pos inputs]
    | present inputs middle types first second => rw [types, if_neg inputs]
  · refine naga24_again long' (first.trans magic) (fun zero => ?_) framed'
      (drawInputs_normalised types numbered run) (naga24_stable types run)
    rw [bound] at zero
    rw [zero] at last
    have first : (words.getD 3 0).toNat = 0 := Nat.le_zero.mp last
    exact nonzero (UInt32.toNat_inj.mp first)

/-- A vertex shader that loads a signed `DrawIndex`. -/
def drawIndexShader : List UInt32 :=
  [0x07230203, 0x00010300, 0, 9, 0] ++
    [emit 17 [4427], emit 71 [4, 11, 4426], emit 19 [1], emit 21 [2, 32, 1], emit 32 [3, 1, 2],
      emit 33 [5, 1], emit 59 [3, 4, 1], emit 54 [1, 6, 0, 5], emit 248 [7], emit 8 [8, 1, 1],
      emit 61 [2, 8, 4], emit 253 [], emit 56 []].flatten

/-- The normalised shader. -/
def drawIndexNormalised : List UInt32 :=
  [0x07230203, 0x00010300, 0, 12, 0] ++
    [emit 71 [4, 11, 4426], emit 21 [9, 32, 0], emit 32 [10, 1, 9], emit 19 [1],
      emit 21 [2, 32, 1], emit 32 [3, 1, 2], emit 33 [5, 1], emit 59 [10, 4, 1],
      emit 54 [1, 6, 0, 5], emit 248 [7], emit 61 [9, 11, 4], emit 124 [2, 8, 11], emit 253 [],
      emit 56 []].flatten

theorem naga24_normalises_drawIndex :
    ∃ code, instructions drawIndexShader = .ok code ∧
      ∃ code' hoisted pieces, Normalised shaderGrammar drawIndexShader code drawIndexNormalised
        code' hoisted pieces := by
  refine ⟨_, rfl, naga24_normalises rfl (.of_all (by decide +kernel) (by decide +kernel)) ?_⟩
  decide +kernel

end Sgfx.SpirvCompat
