import Sgfx.Vulkan.InputAttachmentNumbers

/-!
# Texels of input attachments

The instructions that replace a read, when they run, define its result: the texel at the pixel of
the fragment.

## Main Results

* `fetchTexel_fetches`
* `Run.constants` — the declared constants have their values
-/

namespace Sgfx.Vulkan.InputAttachments

open Spirv

section Fetches

variable {g : Dialect} {c : Coordinate} {next v : UInt32} {i : List UInt32} {depth : Bool}

/-- The values after the coordinate of the pixel is computed; those of old ids are kept. -/
theorem run_coordinate {m : Machine} {env : IdMap Value} {x y z w : UInt32}
    (rest : List (List UInt32)) (fits : next.toNat + 3 ≤ 2 ^ 32)
    (pointer : env c.coordVar = some (.pointer c.coordVar 0 c.vec4))
    (memory : m.memory c.coordVar 0 c.vec4 = some (.words [x, y, z, w])) :
    ∃ env', m.run env ([emit 61 [c.vec4, next, c.coordVar],
        emit 79 [c.vec2, next + 1, next, next, 0, 1], emit 110 [c.ivec2, next + 2, next + 1]] ++
        rest) = m.run env' rest ∧
      env' (next + 2) = some (.words [m.toSigned x, m.toSigned y]) ∧
      ∀ id : UInt32, id.toNat < next.toNat → env' id = env id := by
  have two : (next + 2).toNat = next.toNat + 2 := toNat_add_ofNat (k := 2) (by omega)
  have one : (next + 1).toNat = next.toNat + 1 := toNat_add_ofNat (k := 1) (by omega)
  have load : opcode (emit 61 [c.vec4, next, c.coordVar]) = 61 := opcode_emit_three (by decide)
  have shuffle : opcode (emit 79 [c.vec2, next + 1, next, next, 0, 1]) = 79 :=
    opcode_emit (by decide) (show 6 + 1 < 65536 by decide)
  have convert : opcode (emit 110 [c.ivec2, next + 2, next + 1]) = 110 :=
    opcode_emit_three (by decide)
  have first := Machine.value_load (m := m) load pointer
  have first : m.value env (emit 61 [c.vec4, next, c.coordVar]) = some (.words [x, y, z, w]) :=
    first.trans memory
  have second : m.value (env.insert next (.words [x, y, z, w]))
      (emit 79 [c.vec2, next + 1, next, next, 0, 1]) = some (.words [x, y]) :=
    Machine.value_shuffle shuffle IdMap.insert_self IdMap.insert_self rfl
  have third : m.value ((env.insert next (.words [x, y, z, w])).insert (next + 1) (.words [x, y]))
      (emit 110 [c.ivec2, next + 2, next + 1]) =
        some (.words [m.toSigned x, m.toSigned y]) :=
    Machine.value_convert convert IdMap.insert_self
  refine ⟨_, ?_, IdMap.insert_self (m := (env.insert next (.words [x, y, z, w])).insert (next + 1)
    (.words [x, y])), fun id low => ?_⟩
  · rw [List.cons_append, Machine.run_emit first, List.cons_append, Machine.run_emit second,
      List.cons_append, Machine.run_emit third, List.nil_append]
  · have apart : ∀ other : UInt32, next.toNat ≤ other.toNat → id ≠ other := by
      rintro other above rfl
      omega
    rw [IdMap.insert_of_ne (apart (next + 2) (by omega)),
      IdMap.insert_of_ne (apart (next + 1) (by omega)), IdMap.insert_of_ne (apart next (Nat.le_refl _))]

/-- What replaces a read defines its result. -/
theorem fetchTexel_fetches (fits : next.toNat + (if depth then 5 else 3) ≤ 2 ^ 32)
    (image : (i.getD 3 0).toNat < next.toNat) (lod0 : c.lod0.toNat < next.toNat)
    (zero : c.zero.toNat < next.toNat) (one : c.one.toNat < next.toNat)
    (type : i.getD 1 0 = c.vec4) : Fetches g c v depth i (fetchTexel c depth next i).1 := by
  have fetch : ∀ id : UInt32, opcode (emit 95 [c.vec4, id, i.getD 3 0, next + 2, 2, c.lod0]) = 95 :=
    fun id => opcode_emit (by decide) (show 6 + 1 < 65536 by decide)
  cases depth with
  | false =>
    rw [if_neg Bool.false_ne_true] at fits
    refine ⟨⟨emit 95 [c.vec4, i.getD 2 0, i.getD 3 0, next + 2, 2, c.lod0], ?_, ?_⟩, ?_⟩
    · exact List.mem_append_right _ List.mem_cons_self
    · have ids := g.ids_emit_value 95 c.vec4 (i.getD 2 0) [i.getD 3 0, next + 2, 2, c.lod0]
        (by decide) (show 4 + 3 < 65536 by decide)
      exact ⟨ids.1, ids.2.1.trans (congrArg some type.symm)⟩
    · intro m env x y z w holds pointer memory loaded length
      obtain ⟨env₁, run, pixel, kept⟩ := run_coordinate
        [emit 95 [c.vec4, i.getD 2 0, i.getD 3 0, next + 2, 2, c.lod0]] fits pointer memory
      have last : m.value env₁ (emit 95 [c.vec4, i.getD 2 0, i.getD 3 0, next + 2, 2, c.lod0]) =
          some (.words (m.fetch v [m.toSigned x, m.toSigned y] 0)) :=
        Machine.value_fetch (fetch _) ((kept _ image).trans loaded) pixel
          ((kept _ lod0).trans holds.lod0)
      refine ⟨_, run.trans ((Machine.run_emit last).trans Machine.run_nil), IdMap.insert_self⟩
  | true =>
    rw [if_pos rfl] at fits
    have small : next.toNat + 3 ≤ 2 ^ 32 := by omega
    have four : (next + 4).toNat = next.toNat + 4 := toNat_add_ofNat (k := 4) (by omega)
    have three : (next + 3).toNat = next.toNat + 3 := toNat_add_ofNat (k := 3) (by omega)
    have extract : opcode (emit 81 [c.float, next + 4, next + 3, 0]) = 81 :=
      opcode_emit (by decide) (show 4 + 1 < 65536 by decide)
    have construct : opcode (emit 80 [c.vec4, i.getD 2 0, next + 4, c.zero, c.zero, c.one]) = 80 :=
      opcode_emit (by decide) (show 6 + 1 < 65536 by decide)
    refine ⟨⟨emit 80 [c.vec4, i.getD 2 0, next + 4, c.zero, c.zero, c.one], ?_, ?_⟩, ?_⟩
    · exact List.mem_append_right _ (List.mem_cons_of_mem _ (List.mem_cons_of_mem _
        List.mem_cons_self))
    · have ids := g.ids_emit_value 80 c.vec4 (i.getD 2 0) [next + 4, c.zero, c.zero, c.one]
        (by decide) (show 4 + 3 < 65536 by decide)
      exact ⟨ids.1, ids.2.1.trans (congrArg some type.symm)⟩
    · intro m env x y z w holds pointer memory loaded length
      obtain ⟨env₁, run, pixel, kept⟩ := run_coordinate
        [emit 95 [c.vec4, next + 3, i.getD 3 0, next + 2, 2, c.lod0],
          emit 81 [c.float, next + 4, next + 3, 0],
          emit 80 [c.vec4, i.getD 2 0, next + 4, c.zero, c.zero, c.one]] small pointer memory
      have fourth : m.value env₁ (emit 95 [c.vec4, next + 3, i.getD 3 0, next + 2, 2, c.lod0]) =
          some (.words (m.fetch v [m.toSigned x, m.toSigned y] 0)) :=
        Machine.value_fetch (fetch _) ((kept _ image).trans loaded) pixel
          ((kept _ lod0).trans holds.lod0)
      -- The texel has a first component.
      generalize m.fetch v [m.toSigned x, m.toSigned y] 0 = texel at length fourth ⊢
      obtain ⟨d, later, rfl⟩ : ∃ d later, texel = d :: later := by
        match texel, length with
        | d :: later, _ => exact ⟨d, later, rfl⟩
      have fifth : m.value (env₁.insert (next + 3) (.words (d :: later)))
          (emit 81 [c.float, next + 4, next + 3, 0]) = some (.words [d]) :=
        Machine.value_extract extract IdMap.insert_self rfl
      have old : ∀ id : UInt32, id.toNat < next.toNat →
          (env₁.insert (next + 3) (.words (d :: later))).insert (next + 4) (.words [d]) id =
            env id := by
        intro id low
        have apart : ∀ other : UInt32, next.toNat ≤ other.toNat → id ≠ other := by
          rintro other above rfl
          omega
        rw [IdMap.insert_of_ne (apart (next + 4) (by omega)),
          IdMap.insert_of_ne (apart (next + 3) (by omega)), kept id low]
      have zeros := vectorOf_words ((old _ zero).trans holds.zero)
      have ones := vectorOf_words ((old _ one).trans holds.one)
      have reds : vectorOf ((env₁.insert (next + 3) (.words (d :: later))).insert (next + 4)
          (.words [d])) (next + 4) = some [d] := vectorOf_words IdMap.insert_self
      have sixth : m.value ((env₁.insert (next + 3) (.words (d :: later))).insert (next + 4)
          (.words [d])) (emit 80 [c.vec4, i.getD 2 0, next + 4, c.zero, c.zero, c.one]) =
          some (.words [d, 0, 0, 0x3f800000]) := by
        have parts : [next + 4, c.zero, c.zero, c.one].mapM (vectorOf ((env₁.insert (next + 3)
            (.words (d :: later))).insert (next + 4) (.words [d]))) =
            some [[d], [0], [0], [0x3f800000]] := by
          simp only [List.mapM_cons, List.mapM_nil, reds, zeros, ones]
          rfl
        exact Machine.value_construct construct parts
      refine ⟨_, run.trans ((Machine.run_emit fourth).trans ((Machine.run_emit fifth).trans
        ((Machine.run_emit sixth).trans Machine.run_nil))), IdMap.insert_self⟩

/-- The constants have their values once they are declared. -/
theorem constants_holds {first : Nat} (ids : CoordinateIds c first) (m : Machine)
    (env : IdMap Value) : ∃ env',
      m.run env (c.constants.filter fun i => opcode i == 43) = some env' ∧ c.Holds env' := by
  have opcodes : (c.constants.filter fun i => opcode i == 43) =
      [emit 43 [c.int, c.lod0, 0], emit 43 [c.float, c.zero, 0],
        emit 43 [c.float, c.one, 0x3f800000]] := by
    have vector : ∀ a b d : UInt32, opcode (emit 23 [a, b, d]) = 23 :=
      fun _ _ _ => opcode_emit_three (by decide)
    have int : opcode (emit 21 [c.int, 32, 1]) = 21 := opcode_emit_three (by decide)
    have constant : ∀ a b d : UInt32, opcode (emit 43 [a, b, d]) = 43 :=
      fun _ _ _ => opcode_emit_three (by decide)
    rw [Coordinate.constants]
    simp only [List.filter_cons, vector, int, constant]
    rfl
  have value : ∀ (env : IdMap Value) (type id word : UInt32),
      m.value env (emit 43 [type, id, word]) = some (.words [word]) :=
    fun env type id word => Machine.value_constant (opcode_emit_three (by decide))
  have apart : ∀ a b : UInt32, a.toNat ≠ b.toNat → a ≠ b := by
    rintro a b differ rfl
    exact differ rfl
  refine ⟨((env.insert c.lod0 (.words [0])).insert c.zero (.words [0])).insert c.one
    (.words [0x3f800000]), ?_, ?_, ?_, ?_⟩
  · rw [opcodes, Machine.run_emit (value _ _ _ _), Machine.run_emit (value _ _ _ _),
      Machine.run_emit (value _ _ _ _)]
    rfl
  · rw [IdMap.insert_of_ne (apart _ _ (by rw [ids.lod0, ids.one]; omega)),
      IdMap.insert_of_ne (apart _ _ (by rw [ids.lod0, ids.zero]; omega)), IdMap.insert_self]
  · rw [IdMap.insert_of_ne (apart _ _ (by rw [ids.zero, ids.one]; omega)), IdMap.insert_self]
  · exact IdMap.insert_self

end Fetches

end Sgfx.Vulkan.InputAttachments
