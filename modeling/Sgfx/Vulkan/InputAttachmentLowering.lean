import Sgfx.Vulkan.InputAttachmentFetches

/-!
# Lowering of input attachments

A module is lowered as promised exactly if its ids do not run out, its images are read where they
are loaded, and a coordinate of its own is listed where it is needed.

## Main Results

* `Run.lowered` — what a run returns for a lowerable module
* `lowers_iff_lowerable`
-/

namespace Sgfx.Vulkan.InputAttachments

open Spirv

section Written

variable {g : Dialect} {inputs : List (Option Bool)} {words i j : List UInt32}
  {code : List (List UInt32)} {keys : List (Bool × UInt32)} {plan : Plan} {middle id : UInt32}
  {pieces : List Patch} {s : State} {next next' : UInt32} {body : List (List UInt32)}

/-! ## Words -/

/-- An entry point has one word more. -/
theorem entryPoint_length (run : Run g inputs words code keys plan middle pieces s)
    (member : i ∈ code) (op : opcode i = 15) :
    (i.drop 1 ++ [plan.coordinate.coordVar]).length = i.length := by
  have four := (run.wf.named i member op).1
  rw [List.length_append, List.length_drop, List.length_singleton]
  omega

theorem sections_framed (c : Coordinate) (own : Option UInt32) (member : j ∈ c.sections own) :
    Framed j ∧ opcode j ∈ [71, 23, 21, 43, 32, 59] ∧ (opcode j = 71 → isIndex j = false ∧
      j.getD 2 0 = 11) ∧ (opcode j = 59 → j.getD 2 0 = c.coordVar) := by
  have three : ∀ op a b d : UInt32, op ∈ [71, 23, 21, 43, 32, 59] →
      Framed (emit op [a, b, d]) ∧ opcode (emit op [a, b, d]) = op := by
    intro op a b d listed
    have small : ∀ op ∈ ([71, 23, 21, 43, 32, 59] : List UInt32), op < 65536 := by simp
    exact ⟨framed_emit (small op listed) (show 3 + 1 < 65536 by decide),
      opcode_emit_three (small op listed)⟩
  have other : ∀ op a b d : UInt32, op ∈ [23, 21, 43, 32] → Framed (emit op [a, b, d]) ∧
      opcode (emit op [a, b, d]) ∈ [71, 23, 21, 43, 32, 59] ∧
      (opcode (emit op [a, b, d]) = 71 → isIndex (emit op [a, b, d]) = false ∧
        (emit op [a, b, d]).getD 2 0 = 11) ∧
      (opcode (emit op [a, b, d]) = 59 → (emit op [a, b, d]).getD 2 0 = c.coordVar) := by
    intro op a b d listed
    have larger : ∀ op ∈ ([23, 21, 43, 32] : List UInt32), op ∈ [71, 23, 21, 43, 32, 59] ∧
      op ≠ 71 ∧ op ≠ 59 := by simp
    obtain ⟨inside, decoration, declared⟩ := larger op listed
    obtain ⟨framed, same⟩ := three op a b d inside
    rw [same]
    exact ⟨framed, inside, fun h => absurd h decoration, fun h => absurd h declared⟩
  have decoration := three 71 c.coordVar 11 15 (by decide)
  have declared := three 59 c.coordPointer c.coordVar 1 (by decide)
  have constants : ∀ j ∈ c.constants, Framed j ∧ opcode j ∈ [71, 23, 21, 43, 32, 59] ∧
      (opcode j = 71 → isIndex j = false ∧ j.getD 2 0 = 11) ∧
      (opcode j = 59 → j.getD 2 0 = c.coordVar) := by
    rw [Coordinate.constants]
    simp only [List.forall_mem_cons, List.not_mem_nil, false_implies, implies_true, and_true]
    exact ⟨other 23 _ _ _ (by decide), other 21 _ _ _ (by decide), other 23 _ _ _ (by decide),
      other 43 _ _ _ (by decide), other 43 _ _ _ (by decide), other 43 _ _ _ (by decide)⟩
  have input : ∀ j ∈ c.input, Framed j ∧ opcode j ∈ [71, 23, 21, 43, 32, 59] ∧
      (opcode j = 71 → isIndex j = false ∧ j.getD 2 0 = 11) ∧
      (opcode j = 59 → j.getD 2 0 = c.coordVar) := by
    rw [Coordinate.input]
    simp only [List.forall_mem_cons, List.not_mem_nil, false_implies, implies_true, and_true]
    refine ⟨other 32 _ _ _ (by decide), declared.1, ?_, ?_, fun _ => rfl⟩
    · rw [declared.2]
      decide
    · rw [declared.2]
      intro h
      exact absurd h (by decide)
  unfold Coordinate.sections Coordinate.declarations at member
  rcases List.mem_append.mp member with first | member
  · split at first
    · cases first
    · obtain rfl := List.mem_singleton.mp first
      refine ⟨decoration.1, ?_, fun _ => ⟨?_, rfl⟩, ?_⟩
      · rw [decoration.2]
        decide
      · rw [Bool.eq_false_iff]
        exact fun h => absurd (isIndex_iff.mp h).2.2 (show (11 : UInt32) ≠ 43 by decide)
      · rw [decoration.2]
        intro h
        exact absurd h (by decide)
  · rcases List.mem_append.mp member with constant | member
    · exact constants j constant
    · split at member
      · cases member
      · exact input j member

/-- What is written gives its length, except for an entry point that becomes too long. -/
theorem Turn.framed_or (turn : Turn code inputs plan next i body next')
    (run : Run g inputs words code keys plan middle pieces s) (member : i ∈ code)
    (written : j ∈ body) : j ≠ [] ∧ (Framed j ∨ ((j.headD 0 >>> 16).toNat = 0 ∧
      FragmentEntry i ∧ fragCoord code = none ∧ i.length = 65535)) := by
  have short := run.length_lt member
  have long := run.long i member
  have framed := (framed_of_instructions run.wf.framed).2.2 i member
  have emitted : ∀ (op : UInt32) (operands : List UInt32), emit op operands ≠ [] :=
    fun _ _ => List.cons_ne_nil _ _
  cases turn with
  | capability op capability => cases written
  | index index => cases written
  | entryPoint entry other =>
    obtain rfl := List.mem_singleton.mp written
    have length := entryPoint_length run member entry.op
    refine ⟨emitted _ _, ?_⟩
    by_cases fits : i.length < 65535
    · exact .inl (framed_emit (by decide) (by rw [length]; omega))
    · have full : i.length = 65535 := by omega
      refine .inr ⟨?_, entry, other, full⟩
      show (((UInt32.ofNat (i.drop 1 ++ [plan.coordinate.coordVar]).length + 1) <<< 16 ||| 15) >>>
        16).toNat = 0
      rw [length, full]
      decide
  | type op subpass =>
    rw [op] at long
    obtain ⟨w, a, b, c, d, e, f, u, v, rest, rfl⟩ := exists_image long
    rcases List.mem_cons.mp written with rfl | written
    · exact ⟨emitted _ _, .inl (framed_emit (by decide) short)⟩
    · obtain ⟨ty, _, rfl⟩ := List.mem_map.mp written
      exact ⟨emitted _ _, .inl (framed_emit (by decide) short)⟩
  | pointer copy ty op found typed =>
    rcases List.mem_cons.mp written with rfl | written
    · exact ⟨List.ne_nil_of_length_pos framed.nonempty, .inl framed⟩
    · obtain rfl := List.mem_singleton.mp written
      exact ⟨emitted _ _, .inl (framed_emit (by decide) (show 3 + 1 < 65536 by decide))⟩
  | declaration pointer op depth found =>
    rw [op] at long
    obtain ⟨w, a, b, c, rest, rfl⟩ := exists_words long
    obtain rfl := List.mem_singleton.mp written
    exact ⟨emitted _ _, .inl (framed_emit (by decide) short)⟩
  | load ty type depth op subpass found retyped =>
    rw [op] at long
    obtain ⟨w, a, b, c, rest, rfl⟩ := exists_words long
    obtain rfl := List.mem_singleton.mp written
    exact ⟨emitted _ _, .inl (framed_emit (by decide) short)⟩
  | kept _ _ _ _ _ _ _ _ =>
    obtain rfl := List.mem_singleton.mp written
    exact ⟨List.ne_nil_of_length_pos framed.nonempty, .inl framed⟩
  | read l depth op length loaded subpass attached zero type =>
    have three : ∀ op a b d : UInt32, op < 65536 → Framed (emit op [a, b, d]) := fun _ _ _ _ small =>
      framed_emit small (show 3 + 1 < 65536 by decide)
    have four : ∀ op a b d e : UInt32, op < 65536 → Framed (emit op [a, b, d, e]) :=
      fun _ _ _ _ _ small => framed_emit small (show 4 + 1 < 65536 by decide)
    have six : ∀ op a b d e f h : UInt32, op < 65536 → Framed (emit op [a, b, d, e, f, h]) :=
      fun _ _ _ _ _ _ _ small => framed_emit small (show 6 + 1 < 65536 by decide)
    cases depth with
    | false =>
      have all : ∀ j ∈ (fetchTexel plan.coordinate false next i).1, j ≠ [] ∧ Framed j := by
        show ∀ j ∈ [_, _, _, _], _
        simp only [List.forall_mem_cons, List.not_mem_nil, false_implies, implies_true, and_true]
        exact ⟨⟨emitted _ _, three _ _ _ _ (by decide)⟩, ⟨emitted _ _, six _ _ _ _ _ _ _ (by decide)⟩,
          ⟨emitted _ _, three _ _ _ _ (by decide)⟩, emitted _ _, six _ _ _ _ _ _ _ (by decide)⟩
      exact ⟨(all j written).1, .inl (all j written).2⟩
    | true =>
      have all : ∀ j ∈ (fetchTexel plan.coordinate true next i).1, j ≠ [] ∧ Framed j := by
        show ∀ j ∈ [_, _, _, _, _, _], _
        simp only [List.forall_mem_cons, List.not_mem_nil, false_implies, implies_true, and_true]
        exact ⟨⟨emitted _ _, three _ _ _ _ (by decide)⟩, ⟨emitted _ _, six _ _ _ _ _ _ _ (by decide)⟩,
          ⟨emitted _ _, three _ _ _ _ (by decide)⟩, ⟨emitted _ _, six _ _ _ _ _ _ _ (by decide)⟩,
          ⟨emitted _ _, four _ _ _ _ _ (by decide)⟩, emitted _ _, six _ _ _ _ _ _ _ (by decide)⟩
      exact ⟨(all j written).1, .inl (all j written).2⟩

/-- The words of an instruction with another type. -/
theorem retyped_words {op word : UInt32} (small : op < 65536) (long : 4 ≤ i.length)
    (short : i.length < 65536) : opcode (emit op ((i.drop 1).set 0 word)) = op ∧
      (emit op ((i.drop 1).set 0 word)).getD 1 0 = word ∧
      (emit op ((i.drop 1).set 0 word)).getD 2 0 = i.getD 2 0 ∧
      (emit op ((i.drop 1).set 0 word)).getD 3 0 = i.getD 3 0 := by
  obtain ⟨first, a, b, c, rest, rfl⟩ := exists_words long
  exact ⟨opcode_emit small short, rfl, rfl, rfl⟩

/-- The words of the image types that replace one. -/
theorem image_words (long : 9 ≤ i.length) (short : i.length < 65536) (ty : UInt32) :
    (opcode (emit 25 (sampledType i)) = 25 ∧ (emit 25 (sampledType i)).getD 1 0 = i.getD 1 0 ∧
      (emit 25 (sampledType i)).getD 3 0 = 1 ∧ (emit 25 (sampledType i)).getD 4 0 = 0) ∧
    opcode (emit 25 (depthType ty i)) = 25 ∧ (emit 25 (depthType ty i)).getD 1 0 = ty ∧
      (emit 25 (depthType ty i)).getD 3 0 = 1 ∧ (emit 25 (depthType ty i)).getD 4 0 = 1 := by
  obtain ⟨first, id, sampled, dim, depth, arrayed, ms, use, format, rest, rfl⟩ := exists_image long
  exact ⟨⟨opcode_emit (by decide) short, rfl, rfl, rfl⟩, opcode_emit (by decide) short, rfl, rfl,
    rfl⟩

/-- The opcodes for a texel; what is loaded is the coordinate. -/
theorem fetchTexel_opcodes {c : Coordinate} {depth : Bool}
    (written : j ∈ (fetchTexel c depth next i).1) :
    opcode j ∈ [61, 79, 110, 95, 81, 80] ∧ (opcode j = 61 → j.getD 3 0 = c.coordVar) := by
  have position : opcode (emit 61 [c.vec4, next, c.coordVar]) = 61 := opcode_emit_three (by decide)
  have other : ∀ (op : UInt32) (operands : List UInt32), op ∈ [79, 110, 95, 81, 80] →
      operands.length < 65535 → opcode (emit op operands) ∈ [79, 110, 95, 81, 80] := by
    intro op operands listed short
    have small : ∀ op ∈ ([79, 110, 95, 81, 80] : List UInt32), op < 65536 := by simp
    rwa [opcode_emit (small op listed) (by omega)]
  have larger : ∀ op ∈ ([79, 110, 95, 81, 80] : List UInt32),
      op ∈ [61, 79, 110, 95, 81, 80] ∧ op ≠ 61 := by simp
  have each : opcode j = 61 ∧ j.getD 3 0 = c.coordVar ∨ opcode j ∈ [79, 110, 95, 81, 80] := by
    cases depth with
    | false =>
      have shape : (fetchTexel c false next i).1 = [emit 61 [c.vec4, next, c.coordVar],
        emit 79 [c.vec2, next + 1, next, next, 0, 1], emit 110 [c.ivec2, next + 2, next + 1],
        emit 95 [c.vec4, i.getD 2 0, i.getD 3 0, next + 2, 2, c.lod0]] := rfl
      rw [shape] at written
      simp only [List.mem_cons, List.not_mem_nil, or_false] at written
      rcases written with rfl | rfl | rfl | rfl
      · exact .inl ⟨position, rfl⟩
      · exact .inr (other 79 _ (by decide) (show 6 < 65535 by decide))
      · exact .inr (other 110 _ (by decide) (show 3 < 65535 by decide))
      · exact .inr (other 95 _ (by decide) (show 6 < 65535 by decide))
    | true =>
      have shape : (fetchTexel c true next i).1 = [emit 61 [c.vec4, next, c.coordVar],
        emit 79 [c.vec2, next + 1, next, next, 0, 1], emit 110 [c.ivec2, next + 2, next + 1],
        emit 95 [c.vec4, next + 3, i.getD 3 0, next + 2, 2, c.lod0],
        emit 81 [c.float, next + 4, next + 3, 0],
        emit 80 [c.vec4, i.getD 2 0, next + 4, c.zero, c.zero, c.one]] := rfl
      rw [shape] at written
      simp only [List.mem_cons, List.not_mem_nil, or_false] at written
      rcases written with rfl | rfl | rfl | rfl | rfl | rfl
      · exact .inl ⟨position, rfl⟩
      · exact .inr (other 79 _ (by decide) (show 6 < 65535 by decide))
      · exact .inr (other 110 _ (by decide) (show 3 < 65535 by decide))
      · exact .inr (other 95 _ (by decide) (show 6 < 65535 by decide))
      · exact .inr (other 81 _ (by decide) (show 4 < 65535 by decide))
      · exact .inr (other 80 _ (by decide) (show 6 < 65535 by decide))
  rcases each with ⟨op, loaded⟩ | listed
  · exact ⟨by rw [op]; decide, fun _ => loaded⟩
  · exact ⟨(larger _ listed).1, fun op => absurd op (larger _ listed).2⟩

/-! ## What is left -/

/-- What is written is the instruction, which is not of subpass data, or something else that is
not. -/
theorem Turn.written (turn : Turn code inputs plan next i body next')
    (run : Run g inputs words code keys plan middle pieces s) (member : i ∈ code)
    (entries : ∀ e ∈ code, fragCoord code = none → FragmentEntry e → e.length < 65535)
    (written : j ∈ body) :
    (j = i ∧ ¬ (opcode i = 17 ∧ i.getD 1 0 = 40) ∧ ¬ isIndex i = true ∧
      ¬ (opcode i = 25 ∧ SubpassType code (i.getD 1 0))) ∨
    (opcode j = 25 ∧ j.getD 3 0 = 1) ∨ opcode j ∈ [15, 32, 59, 61, 79, 110, 95, 81, 80] := by
  have short := run.length_lt member
  have long := run.long i member
  cases turn with
  | capability op capability => cases written
  | index index => cases written
  | entryPoint entry other =>
    obtain rfl := List.mem_singleton.mp written
    have length := entryPoint_length run member entry.op
    have fits := entries i member other entry
    have op : opcode (emit 15 (i.drop 1 ++ [plan.coordinate.coordVar])) = 15 :=
      opcode_emit (by decide) (by omega)
    exact .inr (.inr (by rw [op]; decide))
  | type op subpass =>
    rw [op] at long
    rcases List.mem_cons.mp written with rfl | written
    · have words := (image_words long short 0).1
      exact .inr (.inl ⟨words.1, words.2.2.1⟩)
    · obtain ⟨ty, _, rfl⟩ := List.mem_map.mp written
      have words := (image_words long short ty).2
      exact .inr (.inl ⟨words.1, words.2.2.1⟩)
  | pointer copy ty op found typed =>
    rcases List.mem_cons.mp written with rfl | written
    · exact .inr (.inr (by rw [op]; decide))
    · obtain rfl := List.mem_singleton.mp written
      have op : opcode (emit 32 [copy, i.getD 2 0, ty]) = 32 := opcode_emit_three (by decide)
      exact .inr (.inr (by rw [op]; decide))
  | declaration pointer op depth found =>
    rw [op] at long
    obtain rfl := List.mem_singleton.mp written
    exact .inr (.inr (by rw [(retyped_words (by decide) long short).1]; decide))
  | load ty type depth op subpass found retyped =>
    rw [op] at long
    obtain rfl := List.mem_singleton.mp written
    exact .inr (.inr (by rw [(retyped_words (by decide) long short).1]; decide))
  | kept capability index _ type _ _ _ _ =>
    exact .inl ⟨List.mem_singleton.mp written, capability, index, type⟩
  | read l depth op length loaded subpass attached zero type =>
    have larger : ∀ op ∈ ([61, 79, 110, 95, 81, 80] : List UInt32),
        op ∈ [15, 32, 59, 61, 79, 110, 95, 81, 80] := by simp
    exact .inr (.inr (larger _ (fetchTexel_opcodes written).1))

/-- An instruction that has nothing to do with attachments is kept. -/
theorem Turn.mem_body (turn : Turn code inputs plan next i body next')
    (plain : opcode i ∉ [15, 17, 25, 61, 98]) (index : ¬ isIndex i = true)
    (declared : ¬ (opcode i = 59 ∧ Attached code inputs (i.getD 2 0) true)) : i ∈ body := by
  simp only [List.mem_cons, List.not_mem_nil, or_false, not_or] at plain
  obtain ⟨entry, capability, image, load, read⟩ := plain
  cases turn with
  | capability op _ => exact absurd op capability
  | index isIndex => exact absurd isIndex index
  | entryPoint is _ => exact absurd is.op entry
  | type op _ => exact absurd op image
  | pointer _ _ _ _ _ => exact List.mem_cons_self
  | declaration _ op depth _ => exact absurd ⟨op, depth⟩ declared
  | load _ _ _ op _ _ _ => exact absurd op load
  | read _ _ op _ _ _ _ _ _ => exact absurd op read
  | kept _ _ _ _ _ _ _ _ => exact List.mem_cons_self

/-- What is written stems from a section or from a turn. -/
theorem Run.written_cases (run : Run g inputs words code keys plan middle pieces s)
    (written : j ∈ pieces.flatMap Patch.all) :
    j ∈ plan.coordinate.sections (fragCoord code) ∨ ∃ i ∈ code, ∃ body next next',
      Turn code inputs plan next i body next' ∧ j ∈ body := by
  rcases mem_pieces.mp written with inserted | written
  · exact .inl (run.inserted.mem_iff.mp inserted)
  · obtain ⟨piece, there, written⟩ := List.mem_flatMap.mp written
    obtain ⟨i, member, _, _, turn⟩ := forall₂_mem_right run.turns.1 there
    exact .inr ⟨i, member, piece.body, _, _, turn, written⟩

/-- What a turn writes for an instruction is written. -/
theorem Run.turn_of (run : Run g inputs words code keys plan middle pieces s) (member : i ∈ code) :
    ∃ body next next', Turn code inputs plan next i body next' ∧
      body ⊆ pieces.flatMap Patch.all := by
  obtain ⟨piece, there, _, _, turn⟩ := forall₂_mem_left run.turns.1 member
  exact ⟨piece.body, _, _, turn, fun j written =>
    mem_pieces.mpr (.inr (List.mem_flatMap.mpr ⟨piece, there, written⟩))⟩

/-- No subpass data is left. -/
theorem Run.plain (run : Run g inputs words code keys plan middle pieces s)
    (entries : ∀ e ∈ code, fragCoord code = none → FragmentEntry e → e.length < 65535)
    (written : j ∈ pieces.flatMap Patch.all) : isSubpassType j = false ∧
      (opcode j = 17 → j.getD 1 0 ≠ 40) ∧ (opcode j = 71 → j.getD 2 0 ≠ 43) := by
  have other : opcode j ∉ [17, 25, 71] → isSubpassType j = false ∧
      (opcode j = 17 → j.getD 1 0 ≠ 40) ∧ (opcode j = 71 → j.getD 2 0 ≠ 43) := by
    intro plain
    simp only [List.mem_cons, List.not_mem_nil, or_false, not_or] at plain
    refine ⟨Bool.eq_false_iff.mpr fun subpass => plain.2.1 (isSubpassType_iff.mp subpass).1,
      fun op => absurd op plain.1, fun op => absurd op plain.2.2⟩
  rcases run.written_cases written with inserted | ⟨i, member, body, next, next', turn, written⟩
  · obtain ⟨_, listed, decoration, _⟩ := sections_framed _ _ inserted
    by_cases op : opcode j = 71
    · refine ⟨Bool.eq_false_iff.mpr fun subpass => ?_, fun op' => ?_, fun _ => ?_⟩
      · have image := (isSubpassType_iff.mp subpass).1
        rw [op] at image
        exact absurd image (by decide)
      · rw [op] at op'
        exact absurd op' (by decide)
      · rw [(decoration op).2]
        decide
    · have apart : ∀ op ∈ ([71, 23, 21, 43, 32, 59] : List UInt32), op ≠ 71 → op ∉ [17, 25, 71] := by
        simp
      exact other (apart _ listed op)
  · rcases turn.written run member entries written with ⟨rfl, capability, index, type⟩ |
      ⟨op, dim⟩ | listed
    · refine ⟨Bool.eq_false_iff.mpr fun subpass => ?_, fun op coded => capability ⟨op, coded⟩,
        fun op coded => ?_⟩
      · exact type ⟨(isSubpassType_iff.mp subpass).1, j, member, subpass, rfl⟩
      · exact index (isIndex_iff.mpr ⟨op, run.wf.indices j member op coded, coded⟩)
    · refine ⟨Bool.eq_false_iff.mpr fun subpass => ?_, fun op' => ?_, fun op' => ?_⟩
      · have subpass := (isSubpassType_iff.mp subpass).2.2
        rw [dim] at subpass
        exact absurd subpass (by decide)
      · rw [op] at op'
        exact absurd op' (by decide)
      · rw [op] at op'
        exact absurd op' (by decide)
    · have apart : ∀ op ∈ ([15, 32, 59, 61, 79, 110, 95, 81, 80] : List UInt32),
        op ∉ [17, 25, 71] := by simp
      exact other (apart _ listed)

/-! ## Variables -/

/-- An attached variable is not one with a coordinate. -/
theorem Run.coordVar_ne (run : Run g inputs words code keys plan middle pieces s)
    (room : Room words code inputs) {v : UInt32} {depth : Bool}
    (attached : Attached code inputs v depth) : plan.coordinate.coordVar ≠ v := by
  obtain ⟨pointer, ty, image, _⟩ := run.planned.handled.attached v depth attached
  rintro rfl
  cases own : fragCoord code with
  | none =>
    obtain ⟨first, _, _, _, coordVar⟩ := run.ids room
    have new := coordVar own
    obtain ⟨d, member, op, long, same, _⟩ := variableTypes_eq_some image.typed
    have old := run.old (g := g) member (Dialect.mem_mentions.mpr (.inl
      (Dialect.result_value (by rw [op]; decide) (by omega)).1))
    rw [same] at old
    omega
  | some id =>
    obtain ⟨same, _⟩ := run.own_mem own
    obtain ⟨pointer', typed, points⟩ := run.planned.variableOf id own
    have typed' := image.typed
    rw [same, typed] at typed'
    obtain rfl := Option.some.inj typed'
    rw [image.points] at points
    have storage : (0 : UInt32) = 1 := congrArg Prod.fst (Option.some.inj points)
    exact absurd storage (by decide)

/-- The variable with the coordinate is declared. -/
theorem Run.coordinate_none (run : Run g inputs words code keys plan middle pieces s)
    (own : fragCoord code = none) :
    CoordinateVariable (pieces.flatMap Patch.all) plan.coordinate := by
  have inserted : ∀ j ∈ plan.coordinate.sections none, j ∈ pieces.flatMap Patch.all :=
    fun j listed => mem_pieces.mpr (.inl (run.inserted.mem_iff.mpr (own.symm ▸ listed)))
  have input : ∀ j ∈ plan.coordinate.input, j ∈ pieces.flatMap Patch.all := by
    intro j listed
    have declared : j ∈ plan.coordinate.declarations none := List.mem_append_right _ listed
    exact inserted j (List.mem_append_right _ declared)
  have decoration : opcode (emit 71 [plan.coordinate.coordVar, 11, 15]) = 71 :=
    opcode_emit_three (by decide)
  have decorated : emit 71 [plan.coordinate.coordVar, 11, 15] ∈ pieces.flatMap Patch.all :=
    inserted _ (List.mem_append_left _ List.mem_cons_self)
  have pointer : emit 32 [plan.coordinate.coordPointer, 1, plan.coordinate.vec4] ∈
      pieces.flatMap Patch.all := input _ List.mem_cons_self
  have declared : emit 59 [plan.coordinate.coordPointer, plan.coordinate.coordVar, 1] ∈
      pieces.flatMap Patch.all := input _ (List.mem_cons_of_mem _ List.mem_cons_self)
  have pointed : opcode (emit 32 [plan.coordinate.coordPointer, 1, plan.coordinate.vec4]) = 32 :=
    opcode_emit_three (by decide)
  have variableOf :
      opcode (emit 59 [plan.coordinate.coordPointer, plan.coordinate.coordVar, 1]) = 59 :=
    opcode_emit_three (by decide)
  have type : (emit 32 [plan.coordinate.coordPointer, 1, plan.coordinate.vec4]).getD 1 0 =
    plan.coordinate.coordPointer := rfl
  have typed : (emit 59 [plan.coordinate.coordPointer, plan.coordinate.coordVar, 1]).getD 1 0 =
    plan.coordinate.coordPointer := rfl
  exact ⟨⟨_, decorated, isFragCoord_iff.mpr ⟨decoration, rfl, rfl, rfl⟩, rfl⟩,
    _, declared, variableOf, rfl, _, pointer, pointed, type.trans typed.symm, rfl, rfl⟩

/-- The variable with the coordinate is kept. -/
theorem Run.coordinate_some (run : Run g inputs words code keys plan middle pieces s)
    (own : fragCoord code = some id) :
    CoordinateVariable (pieces.flatMap Patch.all) plan.coordinate := by
  obtain ⟨same, _⟩ := run.own_mem own
  obtain ⟨pointer, typed, points⟩ := run.planned.variableOf id own
  have keeps : ∀ i ∈ code, opcode i ∈ [71, 59, 32] → ¬ isIndex i = true →
      (opcode i = 59 → i.getD 2 0 = id) → i ∈ pieces.flatMap Patch.all := by
    intro i member listed index declared
    obtain ⟨body, _, _, turn, inside⟩ := run.turn_of member
    have apart : ∀ op ∈ ([71, 59, 32] : List UInt32), op ∉ [15, 17, 25, 61, 98] := by simp
    refine inside (turn.mem_body (apart _ listed) index fun ⟨op, attached⟩ => ?_)
    -- It is an input variable.
    obtain ⟨pointer', ty, image, _⟩ := run.planned.handled.attached _ _ attached
    have typed' := image.typed
    rw [declared op, typed] at typed'
    obtain rfl := Option.some.inj typed'
    have points := image.points.symm.trans points
    have storage : (0 : UInt32) = 1 := congrArg Prod.fst (Option.some.inj points)
    exact absurd storage (by decide)
  obtain ⟨d, dmem, decorates, target⟩ := find_type own
  obtain ⟨opd, _, builtin, _⟩ := isFragCoord_iff.mp decorates
  obtain ⟨v, vmem, opv, _, samev, typev⟩ := variableTypes_eq_some typed
  obtain ⟨p, pmem, opp, _, samep, storage, pointee⟩ := pointers_eq_some points
  have plain : ∀ {i : List UInt32}, opcode i ≠ 71 → ¬ isIndex i = true :=
    fun other index => other (isIndex_iff.mp index).1
  refine ⟨⟨d, keeps d dmem (by rw [opd]; decide) ?_ ?_, decorates, target.trans same.symm⟩,
    v, keeps v vmem (by rw [opv]; decide) (plain (by rw [opv]; decide)) fun _ => samev, opv,
    samev.trans same.symm, p, keeps p pmem (by rw [opp]; decide) (plain (by rw [opp]; decide)) ?_,
    opp, samep.trans typev.symm, storage, pointee⟩
  · intro index
    have other := (isIndex_iff.mp index).2.2
    rw [builtin] at other
    exact absurd other (by decide)
  · intro op
    rw [opd] at op
    exact absurd op (by decide)
  · intro op
    rw [opp] at op
    exact absurd op (by decide)

/-- What is loaded from an attached variable. -/
theorem Run.load_of (run : Run g inputs words code keys plan middle pieces s)
    (room : Room words code inputs) {v pointer ty : UInt32} {depth : Bool}
    (image : ImageOf code v pointer ty)
    (entry : plan.handles.imageVariables v = some (ty, depth))
    (attached : Attached code inputs v depth)
    (entries : ∀ e ∈ code, fragCoord code = none → FragmentEntry e → e.length < 65535)
    (written : j ∈ pieces.flatMap Patch.all) (op : opcode j = 61) (loaded : j.getD 3 0 = v) :
    if depth then plan.handles.depthTypes ty = some (j.getD 1 0) else j.getD 1 0 = ty := by
  obtain ⟨d, dmem, opd, _, same, typed⟩ := variableTypes_eq_some image.typed
  obtain ⟨p, pmem, opp, _, samep, _, pointee⟩ := pointers_eq_some image.points
  have type : ∀ i ∈ code, opcode i = 61 → i.getD 3 0 = v → i.getD 1 0 = ty := by
    intro i member op loaded
    have type := run.wf.loads i member op d dmem opd (same.trans loaded.symm) p pmem opp
      (samep.trans typed.symm)
    exact type.trans pointee
  rcases run.written_cases written with inserted | ⟨i, member, body, next, next', turn, written⟩
  · have listed := (sections_framed _ _ inserted).2.1
    rw [op] at listed
    exact absurd listed (by decide)
  have short := run.length_lt member
  have long := run.long i member
  have other : ∀ {operation : UInt32}, opcode j = operation → operation ≠ 61 → False :=
    fun same differ => differ (same.symm.trans op)
  cases turn with
  | capability _ _ => cases written
  | index _ => cases written
  | entryPoint isEntry none =>
    obtain rfl := List.mem_singleton.mp written
    have length := entryPoint_length run member isEntry.op
    have fits := entries i member none isEntry
    exact (other (opcode_emit (by decide) (by omega)) (show (15 : UInt32) ≠ 61 by decide)).elim
  | type opi subpass =>
    rw [opi] at long
    rcases List.mem_cons.mp written with rfl | written
    · exact (other (image_words long short 0).1.1 (by decide)).elim
    · obtain ⟨ty, _, rfl⟩ := List.mem_map.mp written
      exact (other (image_words long short ty).2.1 (by decide)).elim
  | pointer copy ty opi found typed =>
    rcases List.mem_cons.mp written with rfl | written
    · exact (other opi (by decide)).elim
    · obtain rfl := List.mem_singleton.mp written
      exact (other (opcode_emit_three (by decide)) (show (32 : UInt32) ≠ 61 by decide)).elim
  | declaration pointer opi depth found =>
    rw [opi] at long
    obtain rfl := List.mem_singleton.mp written
    exact (other (retyped_words (by decide) long short).1 (show (59 : UInt32) ≠ 61 by decide)).elim
  | load ty' type' depth' opi subpass found retyped =>
    rw [opi] at long
    obtain rfl := List.mem_singleton.mp written
    obtain ⟨_, first, _, third⟩ : _ ∧ _ ∧ _ ∧ (emit 61 ((i.drop 1).set 0 type')).getD 3 0 = _ :=
      retyped_words (by decide) long short
    rw [third] at loaded
    rw [loaded, entry] at found
    obtain ⟨rfl, rfl⟩ := Prod.mk.inj (Option.some.inj found)
    rw [first]
    cases depth with
    | true => exact retyped
    | false => exact Eq.trans retyped (type i member opi loaded)
  | read l depth' opi length loadOf subpass attached' zero typed' =>
    rw [(fetchTexel_opcodes written).2 op] at loaded
    exact absurd loaded (run.coordVar_ne room attached)
  | kept _ _ _ _ _ _ load _ =>
    obtain rfl := List.mem_singleton.mp written
    refine absurd ⟨op, ?_⟩ load
    rw [type j member op loaded]
    exact image.subpass

/-- Every attached variable has an image of its kind. -/
theorem Run.handle (run : Run g inputs words code keys plan middle pieces s)
    (room : Room words code inputs) {v : UInt32} {depth : Bool}
    (attached : Attached code inputs v depth)
    (entries : ∀ e ∈ code, fragCoord code = none → FragmentEntry e → e.length < 65535) :
    ∃ pointer type, Handle (pieces.flatMap Patch.all) v depth pointer type := by
  obtain ⟨pointer, ty, image, entry, keyed⟩ := run.planned.handled.attached v depth attached
  have loads := fun j => run.load_of (j := j) room image entry attached entries
  obtain ⟨d, dmem, opd, longd, samed, typed⟩ := variableTypes_eq_some image.typed
  obtain ⟨p, pmem, opp, _, samep, _, pointee⟩ := pointers_eq_some image.points
  obtain ⟨t, tmem, subpass, samet⟩ := image.subpass
  obtain ⟨opt, longt, _⟩ := isSubpassType_iff.mp subpass
  have subpass : SubpassType code (t.getD 1 0) := ⟨t, tmem, subpass, rfl⟩
  obtain ⟨dbody, _, _, dturn, dinside⟩ := run.turn_of dmem
  obtain ⟨pbody, _, _, pturn, pinside⟩ := run.turn_of pmem
  obtain ⟨tbody, _, _, tturn, tinside⟩ := run.turn_of tmem
  have plain : ∀ {i : List UInt32}, opcode i ≠ 71 → ¬ isIndex i = true :=
    fun other index => other (isIndex_iff.mp index).1
  have types : tbody = emit 25 (sampledType t) :: (plan.handles.depthTypes ty).toList.map fun ty =>
      emit 25 (depthType ty t) := by
    cases tturn with
    | type _ _ => rw [samet]
    | kept _ _ _ type _ _ _ _ => exact absurd ⟨opt, subpass⟩ type
    | capability op _ => exact absurd (opt.symm.trans op) (by decide)
    | index index => exact absurd index (plain (by rw [opt]; decide))
    | entryPoint is _ => exact absurd (opt.symm.trans is.op) (by decide)
    | pointer _ _ op _ _ => exact absurd (opt.symm.trans op) (by decide)
    | declaration _ op _ _ => exact absurd (opt.symm.trans op) (by decide)
    | load _ _ _ op _ _ _ => exact absurd (opt.symm.trans op) (by decide)
    | read _ _ op _ _ _ _ _ _ => exact absurd (opt.symm.trans op) (by decide)
  have words := image_words longt (run.length_lt tmem)
  cases depth with
  | false =>
    have declared : d ∈ dbody := dturn.mem_body (by rw [opd]; decide) (plain (by rw [opd]; decide))
      fun ⟨_, deep⟩ => Bool.false_ne_true (attached.unique run.wf (samed ▸ deep))
    have pointed : p ∈ pbody := pturn.mem_body (by rw [opp]; decide) (plain (by rw [opp]; decide))
      fun ⟨op, _⟩ => absurd (opp.symm.trans op) (by decide)
    have written : emit 25 (sampledType t) ∈ tbody := types ▸ List.mem_cons_self
    obtain ⟨op, first, dim, flat⟩ := (words 0).1
    exact ⟨pointer, ty, ⟨d, dinside declared, opd, samed, typed⟩, ⟨p, pinside pointed, opp, samep,
      pointee⟩, ⟨_, tinside written, op, first.trans samet, dim, flat⟩, loads⟩
  | true =>
    obtain ⟨key, pkey⟩ := keyed rfl
    obtain ⟨copy, found⟩ :=
      Option.isSome_iff_exists.mp (run.planned.handled.pointers.mem.mpr pkey)
    obtain ⟨type, retyped⟩ := Option.isSome_iff_exists.mp (run.planned.handled.types.mem.mpr key)
    have declared : emit 59 ((d.drop 1).set 0 copy) ∈ dbody := by
      cases dturn with
      | declaration copy' _ _ found' =>
        rw [typed, found] at found'
        rw [Option.some.inj found']
        exact List.mem_cons_self
      | kept _ _ _ _ _ declaration _ _ => exact absurd ⟨opd, samed ▸ attached⟩ declaration
      | type op _ => exact absurd (opd.symm.trans op) (by decide)
      | capability op _ => exact absurd (opd.symm.trans op) (by decide)
      | index index => exact absurd index (plain (by rw [opd]; decide))
      | entryPoint is _ => exact absurd (opd.symm.trans is.op) (by decide)
      | pointer _ _ op _ _ => exact absurd (opd.symm.trans op) (by decide)
      | load _ _ _ op _ _ _ => exact absurd (opd.symm.trans op) (by decide)
      | read _ _ op _ _ _ _ _ _ => exact absurd (opd.symm.trans op) (by decide)
    have pointed : emit 32 [copy, p.getD 2 0, type] ∈ pbody := by
      cases pturn with
      | pointer copy' type' _ found' retyped' =>
        rw [samep, found] at found'
        rw [pointee, retyped] at retyped'
        rw [Option.some.inj found', Option.some.inj retyped']
        exact List.mem_cons_of_mem _ List.mem_cons_self
      | kept _ _ _ _ unpaired _ _ _ =>
        refine absurd ⟨opp, ?_⟩ unpaired
        rw [samep, found]
        rfl
      | type op _ => exact absurd (opp.symm.trans op) (by decide)
      | capability op _ => exact absurd (opp.symm.trans op) (by decide)
      | index index => exact absurd index (plain (by rw [opp]; decide))
      | entryPoint is _ => exact absurd (opp.symm.trans is.op) (by decide)
      | declaration _ op _ _ => exact absurd (opp.symm.trans op) (by decide)
      | load _ _ _ op _ _ _ => exact absurd (opp.symm.trans op) (by decide)
      | read _ _ op _ _ _ _ _ _ => exact absurd (opp.symm.trans op) (by decide)
    have written : emit 25 (depthType type t) ∈ tbody := by
      rw [types, retyped]
      exact List.mem_cons_of_mem _ List.mem_cons_self
    obtain ⟨opd', first', second', _⟩ : opcode (emit 59 ((d.drop 1).set 0 copy)) = 59 ∧ _ :=
      retyped_words (by decide) longd (run.length_lt dmem)
    obtain ⟨op, first, dim, deep⟩ := (words type).2
    have opp' : opcode (emit 32 [copy, p.getD 2 0, type]) = 32 := opcode_emit_three (by decide)
    refine ⟨copy, type, ⟨_, dinside declared, opd', second'.trans samed, first'⟩,
      ⟨_, pinside pointed, opp', rfl, rfl⟩, ⟨_, tinside written, op, first, dim, deep⟩,
      fun j there op loaded => ?_⟩
    have same : plan.handles.depthTypes ty = some (j.getD 1 0) := loads j there op loaded
    exact Option.some.inj (same.symm.trans retyped)

/-! ## Lowerable modules -/

theorem Lowerable.room (lowerable : Lowerable g inputs words code)
    (run : Run g inputs words code keys plan middle pieces s) : Room words code inputs :=
  lowerable.ids run.subpass

theorem Lowerable.entries (lowerable : Lowerable g inputs words code)
    (run : Run g inputs words code keys plan middle pieces s) :
    ∀ e ∈ code, fragCoord code = none → FragmentEntry e → e.length < 65535 :=
  fun e member none entry => lowerable.lengths run.subpass none e member entry

/-- A read of what is not loaded with a type of subpass data is not one of subpass data. -/
theorem Lowerable.unread (lowerable : Lowerable g inputs words code)
    (run : Run g inputs words code keys plan middle pieces s) (member : i ∈ code)
    (unloaded : opcode i = 98 → ∀ l, LoadOf code (i.getD 3 0) l →
      ¬ SubpassType code (l.getD 1 0)) : ¬ SubpassRead g code i := by
  intro read
  obtain ⟨l, load⟩ := lowerable.loads i member read
  obtain ⟨j, there, defines, type, typed, subpass⟩ := read.image
  have long := run.long l load.1
  rw [load.2.1] at long
  obtain ⟨result, loaded⟩ :=
    Dialect.result_value (g := g) (by rw [load.2.1]; decide) (Nat.le_trans (by decide) long)
  obtain rfl := run.wf.numbered.eq_of_result there load.1 defines
    (result.trans (congrArg some load.2.2))
  obtain rfl := Option.some.inj (loaded.symm.trans typed)
  exact unloaded read.op j load subpass

/-- What a turn writes is what is promised. -/
theorem Turn.rewritten (turn : Turn code inputs plan next i body next')
    (run : Run g inputs words code keys plan middle pieces s)
    (lowerable : Lowerable g inputs words code) (member : i ∈ code)
    (above : middle.toNat ≤ next.toNat) (after : next'.toNat = next.toNat + readIds code inputs i) :
    Rewritten g code inputs plan.coordinate i body := by
  have framed := (framed_of_instructions run.wf.framed).2.2 i member
  have long := run.long i member
  have unread : opcode i ≠ 98 → ¬ SubpassRead g code i := fun other read => other read.op
  cases turn with
  | capability op capability => exact .capability op capability
  | index index => exact .index index
  | entryPoint entry other => exact .entryPoint entry other
  | type op subpass => exact .type _ op subpass
  | pointer copy ty op found typed =>
    refine .pointer copy ty op ?_
    have key := run.planned.handled.types.mem.mp (Option.isSome_iff_exists.mpr ⟨ty, typed⟩)
    obtain ⟨v, pointer, type, _, image, same | other⟩ := run.planned.handled.keys _ key
    · rw [(Prod.mk.inj same).2]
      exact image.subpass
    · cases other
  | declaration pointer op depth found => exact .declaration pointer op depth
  | load ty type depth op subpass found retyped =>
    cases depth with
    | true => exact .load type op subpass (run.planned.handled.images _ _ _ found)
    | false =>
      rw [if_neg Bool.false_ne_true] at retyped
      have same : emit 61 ((i.drop 1).set 0 type) = i := by
        rw [retyped]
        have again := emit_opcode framed
        rw [op] at again long
        refine Eq.trans ?_ again
        obtain ⟨first, a, b, c, rest, rfl⟩ := exists_words long
        rfl
      rw [same]
      exact .kept (unread (by rw [op]; decide))
  | read l depth op length loaded subpass attached zero type =>
    have fits := (fetchTexel plan.coordinate depth next i).2.toNat_lt
    rw [readIds_loaded run.wf run.long op loaded subpass attached] at after
    have longl := run.long l loaded.1
    rw [loaded.2.1] at longl
    obtain ⟨result, typed⟩ :=
      Dialect.result_value (g := g) (by rw [loaded.2.1]; decide) (Nat.le_trans (by decide) longl)
    rw [loaded.2.2] at result
    have image := run.old loaded.1 (Dialect.mem_mentions.mpr (.inl result))
    obtain ⟨first, ids, first_eq, middle_eq, _⟩ := run.ids (lowerable.room run)
    refine .read (l.getD 3 0) depth _ ⟨op, l, loaded.1, result, _, typed, subpass⟩
      ⟨l, loaded, rfl⟩ attached zero (fetchTexel_fetches (by omega) (by omega) ?_ ?_ ?_ type)
    · rw [ids.lod0]
      omega
    · rw [ids.zero]
      omega
    · rw [ids.one]
      omega
  | kept _ _ _ _ _ _ _ read => exact .kept (lowerable.unread run member read)

/-- Entry points that reach a read have the variable in their interface. -/
theorem Run.interface (run : Run g inputs words code keys plan middle pieces s)
    (lowerable : Lowerable g inputs words code) (written : j ∈ pieces.flatMap Patch.all)
    (entry : FragmentEntry j) (reads : ReadsSubpass g code j) :
    plan.coordinate.coordVar ∈ afterString (j.drop 3) := by
  rcases run.written_cases written with inserted | ⟨i, member, body, next, next', turn, written⟩
  · have listed := (sections_framed _ _ inserted).2.1
    rw [entry.op] at listed
    exact absurd listed (by decide)
  have short := run.length_lt member
  have long := run.long i member
  have other : ∀ {op : UInt32}, opcode j = op → op ≠ 15 → False :=
    fun same differ => differ (same.symm.trans entry.op)
  cases turn with
  | capability _ _ => cases written
  | index _ => cases written
  | entryPoint isEntry none =>
    obtain rfl := List.mem_singleton.mp written
    obtain ⟨four, named⟩ := run.wf.named i member isEntry.op
    obtain ⟨w, model, function, name, rest, rfl⟩ := exists_words four
    have named : (name :: rest).any endsString = true := named
    have after : afterString (name :: rest ++ [plan.coordinate.coordVar]) =
        afterString (name :: rest) ++ [plan.coordinate.coordVar] := afterString_append named
    show plan.coordinate.coordVar ∈ afterString (name :: rest ++ [plan.coordinate.coordVar])
    rw [after]
    exact List.mem_append_right _ List.mem_cons_self
  | type op subpass =>
    rw [op] at long
    rcases List.mem_cons.mp written with rfl | written
    · exact (other (image_words long short 0).1.1 (by decide)).elim
    · obtain ⟨ty, _, rfl⟩ := List.mem_map.mp written
      exact (other (image_words long short ty).2.1 (by decide)).elim
  | pointer copy ty op found typed =>
    rcases List.mem_cons.mp written with rfl | written
    · exact (other op (by decide)).elim
    · obtain rfl := List.mem_singleton.mp written
      exact (other (opcode_emit_three (by decide)) (show (32 : UInt32) ≠ 15 by decide)).elim
  | declaration pointer op depth found =>
    rw [op] at long
    obtain rfl := List.mem_singleton.mp written
    exact (other (retyped_words (by decide) long short).1 (show (59 : UInt32) ≠ 15 by decide)).elim
  | load ty type depth op subpass found retyped =>
    rw [op] at long
    obtain rfl := List.mem_singleton.mp written
    exact (other (retyped_words (by decide) long short).1 (show (61 : UInt32) ≠ 15 by decide)).elim
  | read l depth op length loaded subpass attached zero type =>
    have listed := (fetchTexel_opcodes written).1
    rw [entry.op] at listed
    exact absurd listed (by decide)
  | kept _ _ entryPoint _ _ _ _ _ =>
    obtain rfl := List.mem_singleton.mp written
    cases own : fragCoord code with
    | none => exact absurd ⟨entry, own⟩ entryPoint
    | some id =>
      rw [(run.own_mem own).1]
      exact lowerable.interfaces id own j member entry reads

/-- A lowerable module is lowered. -/
theorem Run.lowered (run : Run g inputs words code keys plan middle pieces s)
    (lowerable : Lowerable g inputs words code) :
    Lowered g inputs words ((words.take 5).set 3 s.next ++ (pieces.flatMap Patch.all).flatten) code
      (pieces.flatMap Patch.all) plan.coordinate pieces := by
  have room := lowerable.room run
  have entries := lowerable.entries run
  have length := (framed_of_instructions run.wf.framed).1
  have long : 5 ≤ words.length := by
    rw [List.length_take] at length
    omega
  have framed : ∀ j ∈ pieces.flatMap Patch.all, Framed j := by
    intro j written
    rcases run.written_cases written with inserted | ⟨i, member, body, next, next', turn, written⟩
    · exact (sections_framed _ _ inserted).1
    · refine (turn.framed_or run member written).2.resolve_right ?_
      rintro ⟨_, entry, none, full⟩
      have fits := entries i member none entry
      omega
  obtain ⟨parsed, take, bound, _⟩ := instructions_bound long s.next framed
  obtain ⟨first, ids, _⟩ := run.ids room
  refine ⟨parsed, bound.symm ▸ take, bound.symm ▸ run.numbered room entries,
    run.fresh room entries, fun _ => ?_, fun j written => (run.plain entries written).1,
    fun j written => (run.plain entries written).2.1,
    fun j written => (run.plain entries written).2.2, rfl, ?_,
    fun _ m env => constants_holds ids m env, fun _ => ?_, fun id _ own => (run.own_mem own).1, ?_,
    fun v depth _ attached => run.handle room attached entries,
    fun j written => run.interface lowerable written⟩
  · rw [bound, run.next_eq, toNat_add_ofNat room]
  · rw [if_pos run.subpass]
    exact run.inserted
  · cases own : fragCoord code with
    | none => exact run.coordinate_none own
    | some id => exact run.coordinate_some own
  · have turns := (List.forall₂_and_left _ _).mpr
      ⟨fun i (member : i ∈ code) => member, run.turns_toNat room⟩
    refine turns.imp ?_
    rintro i piece ⟨member, next, next', turn, above, after, _⟩
    exact turn.rewritten run lowerable member above after

/-- A module that is lowered is lowerable. -/
theorem Run.lowerable (run : Run g inputs words code keys plan middle pieces s)
    (lowers : Lowers g inputs words code
      ((words.take 5).set 3 s.next ++ (pieces.flatMap Patch.all).flatten)) :
    Lowerable g inputs words code := by
  obtain ⟨code', c, pieces', lowered⟩ := lowers
  -- What is parsed is what was written.
  have written : pieces.flatMap Patch.all = code' := by
    obtain ⟨_, flat, framed⟩ := framed_of_instructions lowered.framed
    have length : ((words.take 5).set 3 s.next).length = 5 := by
      rw [List.length_set]
      exact (framed_of_instructions run.wf.framed).1
    have take : ((words.take 5).set 3 s.next ++ (pieces.flatMap Patch.all).flatten).take 5 =
      (words.take 5).set 3 s.next := List.take_left' length
    rw [take] at flat
    refine eq_of_flatten_eq (List.append_cancel_left flat) framed fun j written => ?_
    rcases run.written_cases written with inserted | ⟨i, member, body, _, _, turn, written⟩
    · have framed := (sections_framed _ _ inserted).1
      exact ⟨List.ne_nil_of_length_pos framed.nonempty, .inl framed⟩
    · obtain ⟨nonempty, framed⟩ := turn.framed_or run member written
      exact ⟨nonempty, framed.imp_right And.left⟩
  have framed : ∀ j ∈ pieces.flatMap Patch.all, Framed j := by
    rw [written]
    exact (framed_of_instructions lowered.framed).2.2
  have plain : ∀ {i : List UInt32}, opcode i ≠ 71 → ¬ isIndex i = true :=
    fun other index => other (isIndex_iff.mp index).1
  -- The piece of an entry point.
  have entryTurn : ∀ e ∈ code, FragmentEntry e →
      (fragCoord code = none ∧
        emit 15 (e.drop 1 ++ [plan.coordinate.coordVar]) ∈ pieces.flatMap Patch.all) ∨
      (¬ fragCoord code = none ∧ e ∈ pieces.flatMap Patch.all) := by
    intro e member entry
    obtain ⟨body, _, _, turn, inside⟩ := run.turn_of member
    cases turn with
    | entryPoint _ none => exact .inl ⟨none, inside List.mem_cons_self⟩
    | kept _ _ entryPoint _ _ _ _ _ =>
      exact .inr ⟨fun none => entryPoint ⟨entry, none⟩, inside List.mem_cons_self⟩
    | capability op _ => exact absurd (entry.op.symm.trans op) (by decide)
    | index index => exact absurd index (plain (by rw [entry.op]; decide))
    | type op _ => exact absurd (entry.op.symm.trans op) (by decide)
    | pointer _ _ op _ _ => exact absurd (entry.op.symm.trans op) (by decide)
    | declaration _ op _ _ => exact absurd (entry.op.symm.trans op) (by decide)
    | load _ _ _ op _ _ _ => exact absurd (entry.op.symm.trans op) (by decide)
    | read _ _ op _ _ _ _ _ _ => exact absurd (entry.op.symm.trans op) (by decide)
  refine ⟨fun unused => absurd run.subpass unused, fun subpass => ?_, ?_, ?_, ?_⟩
  · rw [← lowered.taken subpass]
    exact UInt32.toNat_lt _
  · intro _ none e member entry
    rcases entryTurn e member entry with ⟨_, there⟩ | ⟨some, _⟩
    · have short := (framed _ there).length_lt
      have length := entryPoint_length run member entry.op
      have shape : (emit 15 (e.drop 1 ++ [plan.coordinate.coordVar])).length =
        (e.drop 1 ++ [plan.coordinate.coordVar]).length + 1 := rfl
      omega
    · exact absurd none some
  · intro i member read
    obtain ⟨piece, _, rewritten⟩ := forall₂_mem_left lowered.bodies member
    generalize piece.body = body at rewritten
    cases rewritten with
    | read v depth _ _ loaded _ _ _ =>
      obtain ⟨l, load, _⟩ := loaded
      exact ⟨l, load⟩
    | kept other => exact absurd read other
    | capability op _ => exact absurd (read.op.symm.trans op) (by decide)
    | index index => exact absurd index (plain (by rw [read.op]; decide))
    | entryPoint is _ => exact absurd (read.op.symm.trans is.op) (by decide)
    | type _ op _ => exact absurd (read.op.symm.trans op) (by decide)
    | pointer _ _ op _ => exact absurd (read.op.symm.trans op) (by decide)
    | declaration _ op _ => exact absurd (read.op.symm.trans op) (by decide)
    | load _ op _ _ => exact absurd (read.op.symm.trans op) (by decide)
  · intro id own e member entry reads
    rcases entryTurn e member entry with ⟨none, _⟩ | ⟨_, there⟩
    · rw [own] at none
      cases none
    · rw [← lowered.own id run.subpass own]
      exact lowered.interfaces e (written ▸ there) entry reads

end Written

/-! ## Modules without subpass data -/

section Unused

variable {g : Dialect} {inputs : List (Option Bool)} {words : List UInt32}
  {code : List (List UInt32)}

theorem not_subpassRead (unused : ¬ HasSubpass code) (i : List UInt32) : ¬ SubpassRead g code i :=
  fun read => by
    obtain ⟨_, _, _, type, _, subpass⟩ := read.image
    exact unused (hasSubpass_iff.mpr ⟨type, subpass⟩)

/-- Without subpass data nothing changes, which is right if nothing else is left of it. -/
theorem lowers_same_iff (wf : WellFormed g words code) (unused : ¬ HasSubpass code) :
    Lowers g inputs words code words ↔ Lowerable g inputs words code := by
  constructor
  · rintro ⟨code', c, pieces, lowered⟩
    obtain rfl := Except.ok.inj (wf.framed.symm.trans lowered.framed)
    refine ⟨fun _ => ⟨lowered.capabilities, fun i member => ?_⟩, fun used => absurd used unused,
      fun used => absurd used unused, fun i _ read => absurd read (not_subpassRead unused i), ?_⟩
    · refine Bool.eq_false_iff.mpr fun index => ?_
      obtain ⟨op, _, coded⟩ := isIndex_iff.mp index
      exact lowered.indices i member op coded
    · rintro id own e member entry ⟨r, _, read, _⟩
      exact absurd read (not_subpassRead unused r)
  · intro lowerable
    obtain ⟨capabilities, indices⟩ := lowerable.unused unused
    refine ⟨code, ⟨0, 0, 0, 0, 0, 0, 0, 0, 0, 0⟩, code.map fun i => ⟨[], [i]⟩, wf.framed, ?_,
      wf.numbered, fun id defined => .inl defined, fun used => absurd used unused, ?_,
      capabilities, fun i member op coded => ?_, ?_, ?_, fun used => absurd used unused,
      fun used => absurd used unused, fun id used => absurd used unused, ?_,
      fun v depth used => absurd used unused, ?_⟩
    · obtain ⟨length, _⟩ := framed_of_instructions wf.framed
      match words, length with
      | a :: b :: c :: d :: e :: rest, _ => rfl
    · exact fun i member => Bool.eq_false_iff.mpr fun subpass =>
        unused (hasSubpass_iff.mpr ⟨_, i, member, subpass, rfl⟩)
    · have index := isIndex_iff.mpr ⟨op, wf.indices i member op coded, coded⟩
      rw [indices i member] at index
      cases index
    · rw [List.flatMap_map]
      exact (List.flatMap_singleton' code).symm
    · rw [List.flatMap_map, List.flatMap_eq_nil_iff.mpr fun _ _ => rfl, if_neg unused]
    · rw [List.forall₂_map_right_iff, List.forall₂_same]
      exact fun i _ => .kept (not_subpassRead unused i)
    · rintro e member entry ⟨r, _, read, _⟩
      exact absurd read (not_subpassRead unused r)

end Unused

/-- A module is lowered as promised if and only if it is lowerable, whatever the order of the
attachments is. -/
theorem lowers_iff_lowerable {g : Dialect} {inputs : List (Option Bool)} {words out : List UInt32}
    {code : List (List UInt32)} {order : List (UInt32 × UInt32) → List (UInt32 × UInt32)}
    (wf : WellFormed g words code) (perm : ∀ entries, (order entries).Perm entries)
    (h : lower order words inputs = .ok out) :
    Lowers g inputs words code out ↔ Lowerable g inputs words code := by
  rcases lower_eq_ok wf perm h with ⟨unused, rfl⟩ | ⟨keys, plan, middle, pieces, s, run, rfl⟩
  · exact lowers_same_iff wf unused
  · exact ⟨run.lowerable, fun lowerable => ⟨_, plan.coordinate, pieces, run.lowered lowerable⟩⟩

/-! ## A fragment shader -/

/-- A fragment shader that reads inputs 0 and 1, and perhaps another one that uses the coordinate of
the fragment. -/
def inputShader (own : Bool) : List (List UInt32) :=
  [emit 17 [1], emit 17 [40], emit 14 [0, 1], emit 15 [4, 14, 0x6e69616d, 0, 13]] ++
  (if own then [emit 15 [4, 23, 0x6d6f6f7a, 0, 13, 22]] else []) ++
  [emit 16 [14, 7], emit 71 [11, 43, 0], emit 71 [12, 43, 1]] ++
  (if own then [emit 16 [23, 7], emit 71 [22, 11, 15]] else []) ++
  [emit 19 [1], emit 33 [2, 1], emit 22 [3, 32], emit 23 [4, 3, 4],
    emit 25 [5, 3, 6, 2, 0, 0, 2, 0], emit 32 [6, 0, 5], emit 21 [7, 32, 1], emit 23 [8, 7, 2],
    emit 43 [7, 9, 0], emit 44 [8, 10, 9, 9], emit 59 [6, 11, 0], emit 59 [6, 12, 0],
    emit 32 [15, 3, 4], emit 59 [15, 13, 3]] ++
  (if own then [emit 32 [21, 1, 4], emit 59 [21, 22, 1]] else []) ++
  [emit 54 [1, 14, 0, 2], emit 248 [16], emit 61 [5, 17, 11], emit 98 [4, 18, 17, 10],
    emit 61 [5, 19, 12], emit 98 [4, 20, 19, 10], emit 62 [13, 18], emit 62 [13, 20], emit 253 [],
    emit 56 []] ++
  if own then [emit 54 [1, 23, 0, 2], emit 248 [24], emit 61 [4, 25, 22], emit 62 [13, 25],
    emit 253 [], emit 56 []] else []

/-- The shader when the first input is a colour and the second one depth. -/
def inputShaderLowered : List (List UInt32) :=
  [emit 17 [1], emit 14 [0, 1], emit 15 [4, 14, 0x6e69616d, 0, 13, 23], emit 16 [14, 7],
    emit 71 [23, 11, 15], emit 19 [1], emit 33 [2, 1], emit 22 [3, 32], emit 23 [4, 3, 4],
    emit 25 [5, 3, 1, 0, 0, 0, 1, 0], emit 25 [21, 3, 1, 1, 0, 0, 1, 0], emit 32 [6, 0, 5],
    emit 32 [22, 0, 21], emit 21 [7, 32, 1], emit 23 [8, 7, 2], emit 43 [7, 9, 0],
    emit 44 [8, 10, 9, 9], emit 59 [6, 11, 0], emit 59 [22, 12, 0], emit 32 [15, 3, 4],
    emit 59 [15, 13, 3], emit 23 [25, 3, 2], emit 21 [26, 32, 1], emit 23 [27, 26, 2],
    emit 43 [26, 28, 0], emit 43 [3, 29, 0], emit 43 [3, 30, 0x3f800000], emit 32 [24, 1, 4],
    emit 59 [24, 23, 1], emit 54 [1, 14, 0, 2], emit 248 [16], emit 61 [5, 17, 11],
    emit 61 [4, 31, 23], emit 79 [25, 32, 31, 31, 0, 1], emit 110 [27, 33, 32],
    emit 95 [4, 18, 17, 33, 2, 28], emit 61 [21, 19, 12], emit 61 [4, 34, 23],
    emit 79 [25, 35, 34, 34, 0, 1], emit 110 [27, 36, 35], emit 95 [4, 37, 19, 36, 2, 28],
    emit 81 [3, 38, 37, 0], emit 80 [4, 20, 38, 29, 29, 30], emit 62 [13, 18], emit 62 [13, 20],
    emit 253 [], emit 56 []]

/-- The instructions of a module come one after the other. -/
theorem ordered_of_take {g : Dialect} {code : List (List UInt32)}
    (h : ∀ k < code.length, opcode (code.getD k []) = 98 → ∀ j ∈ code,
      g.resultOf j = some ((code.getD k []).getD 3 0) → j ∈ code.take k) :
    ∀ pre i post, code = pre ++ i :: post → opcode i = 98 → ∀ j ∈ code,
      g.resultOf j = some (i.getD 3 0) → j ∈ pre := by
  rintro pre i post rfl op j member defines
  have here : (pre ++ i :: post).getD pre.length [] = i := by
    rw [List.getD_append_right _ _ _ _ (Nat.le_refl _), Nat.sub_self]
    rfl
  have before := h pre.length (by rw [List.length_append]; exact Nat.lt_add_of_pos_right (Nat.succ_pos _))
  rw [here, List.take_left] at before
  exact before op j member defines

theorem inputShader_wellFormed : ∀ own : Bool,
    WellFormed shaderGrammar (moduleWords (if own then 26 else 21) (inputShader own))
      (inputShader own)
  | false => ⟨by decide +kernel, .of_all (by decide +kernel) (by decide +kernel), by decide +kernel,
      by decide +kernel, by decide +kernel, by decide +kernel, by decide +kernel, by decide +kernel,
      ordered_of_take (by decide +kernel), by decide +kernel⟩
  | true => ⟨by decide +kernel, .of_all (by decide +kernel) (by decide +kernel), by decide +kernel,
      by decide +kernel, by decide +kernel, by decide +kernel, by decide +kernel, by decide +kernel,
      ordered_of_take (by decide +kernel), by decide +kernel⟩

theorem inputShader_lowers :
    Lowers shaderGrammar [some false, some true] (moduleWords 21 (inputShader false))
        (inputShader false) (moduleWords 39 inputShaderLowered) ↔
      Lowerable shaderGrammar [some false, some true] (moduleWords 21 (inputShader false))
        (inputShader false) := by
  have lowered : lower id (moduleWords 21 (inputShader false)) [some false, some true] =
    .ok (moduleWords 39 inputShaderLowered) := by decide +kernel
  exact lowers_iff_lowerable (inputShader_wellFormed false) List.Perm.refl lowered

/-- The first entry point reads inputs, but its interface does not have the variable of the other
one. -/
theorem inputShader_interface :
    WellFormed shaderGrammar (moduleWords 26 (inputShader true)) (inputShader true) ∧
      ∃ out, lower id (moduleWords 26 (inputShader true)) [some false, some true] = .ok out ∧
        ¬ Lowers shaderGrammar [some false, some true] (moduleWords 26 (inputShader true))
          (inputShader true) out := by
  have wf := inputShader_wellFormed true
  refine ⟨wf, ?_⟩
  have ok : (lower id (moduleWords 26 (inputShader true)) [some false, some true]).isOk = true := by
    decide +kernel
  cases result : lower id (moduleWords 26 (inputShader true)) [some false, some true] with
  | error e =>
    rw [result] at ok
    cases ok
  | ok out =>
    refine ⟨out, rfl, fun lowers => ?_⟩
    rcases lower_eq_ok wf List.Perm.refl result with ⟨unused, _⟩ | ⟨_, _, _, _, _, run, rfl⟩
    · exact unused (by decide +kernel)
    have interfaces := (run.lowerable lowers).interfaces 22 (by decide +kernel)
      (emit 15 [4, 14, 0x6e69616d, 0, 13]) (by decide +kernel) ⟨by decide +kernel, rfl⟩
    have read : SubpassRead shaderGrammar (inputShader true) (emit 98 [4, 18, 17, 10]) :=
      ⟨by decide +kernel, emit 61 [5, 17, 11], by decide +kernel, by decide +kernel, 5,
        by decide +kernel, emit 25 [5, 3, 6, 2, 0, 0, 2, 0], by decide +kernel, by decide +kernel,
        rfl⟩
    have within : Within (inputShader true) (emit 54 [1, 14, 0, 2]) (emit 98 [4, 18, 17, 10]) :=
      ⟨(inputShader true).take 26, [emit 248 [16], emit 61 [5, 17, 11], emit 98 [4, 18, 17, 10]],
        (inputShader true).drop 30, by decide +kernel, by decide +kernel, by decide +kernel,
        by decide +kernel⟩
    have reaches : Reaches (inputShader true) (emit 98 [4, 18, 17, 10]) 14 := .here _ within
    have listed := interfaces ⟨_, by decide +kernel, read, reaches⟩
    exact absurd listed (by decide +kernel)

end Sgfx.Vulkan.InputAttachments
