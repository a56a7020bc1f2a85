import Sgfx.Vulkan.InputAttachmentTurns

/-!
# Ids of lowered input attachments

The ids of a run are consecutive numbers from the bound of the module on: those of handles, those of
coordinates, and those of reads.  If they all fit, what is written is a module again.

## Main Results

* `Run.next_eq` — the next bound, which may overflow
* `Run.numbered` — no id is defined twice, and all are below the bound
-/

namespace Sgfx.Vulkan.InputAttachments

open Spirv

theorem toNat_add_ofNat {a : UInt32} {k : Nat} (fits : a.toNat + k < 2 ^ 32) :
    (a + UInt32.ofNat k).toNat = a.toNat + k := by
  rw [UInt32.toNat_add, UInt32.toNat_ofNat']
  omega

/-- One id more if the module has no coordinate of its own. -/
def extraIds (own : Option UInt32) : Nat := if own.isSome then 0 else 1

/-- The ids of coordinates, from the one of the pointer on. -/
structure CoordinateIds (c : Coordinate) (first : Nat) : Prop where
  coordPointer : c.coordPointer.toNat = first
  vec2 : c.vec2.toNat = first + 1
  int : c.int.toNat = first + 2
  ivec2 : c.ivec2.toNat = first + 3
  lod0 : c.lod0.toNat = first + 4
  zero : c.zero.toNat = first + 5
  one : c.one.toNat = first + 6

/-- The ids that a type or a pointer has besides its own. -/
def copyIds (plan : Plan) (i : List UInt32) : List UInt32 :=
  if opcode i = 25 then (plan.handles.depthTypes (i.getD 1 0)).toList
  else if opcode i = 32 then (plan.handles.depthPointers (i.getD 1 0)).toList
  else []

section Ids

variable {g : Dialect} {inputs : List (Option Bool)} {words i j : List UInt32}
  {code : List (List UInt32)} {keys : List (Bool × UInt32)} {plan : Plan} {middle id : UInt32}
  {pieces : List Patch} {s : State}

theorem takenIds_eq (run : Run g inputs words code keys plan middle pieces s) :
    takenIds code inputs = keys.length + extraIds (fragCoord code) + 7 +
      (code.map (readIds code inputs)).sum := by
  unfold takenIds extraIds
  rw [run.planned.handled.length]
  split <;> omega

/-- The ids of coordinates follow those of handles. -/
theorem Run.coordinate_eq (run : Run g inputs words code keys plan middle pieces s) :
    let c := plan.coordinate
    let first := words.getD 3 0 + UInt32.ofNat (keys.length + extraIds (fragCoord code))
    c.coordVar = (fragCoord code).getD (words.getD 3 0 + UInt32.ofNat keys.length) ∧
      c.coordPointer = first ∧ c.vec2 = first + 1 ∧ c.int = first + 2 ∧ c.ivec2 = first + 3 ∧
      c.lod0 = first + 4 ∧ c.zero = first + 5 ∧ c.one = first + 6 ∧ middle = first + 7 := by
  have planned := run.planned.coordinate
  rw [run.planned.handled.next] at planned
  unfold extraIds
  cases own : fragCoord code with
  | none =>
    rw [own] at planned
    obtain ⟨same, rfl⟩ := Prod.mk.inj planned
    dsimp only
    rw [UInt32.ofNat_add, ← UInt32.add_assoc, ← same]
    exact ⟨rfl, rfl, rfl, rfl, rfl, rfl, rfl, rfl, rfl⟩
  | some id =>
    rw [own] at planned
    obtain ⟨same, rfl⟩ := Prod.mk.inj planned
    dsimp only
    rw [← same]
    exact ⟨rfl, rfl, rfl, rfl, rfl, rfl, rfl, rfl, rfl⟩

/-- The next bound, which may overflow. -/
theorem Run.next_eq (run : Run g inputs words code keys plan middle pieces s) :
    s.next = words.getD 3 0 + UInt32.ofNat (takenIds code inputs) := by
  obtain ⟨_, _, _, _, _, _, _, _, middle_eq⟩ := run.coordinate_eq
  rw [run.turns.2, middle_eq, takenIds_eq run]
  simp only [UInt32.ofNat_add, UInt32.add_assoc]
  rfl

/-- All ids fit. -/
def Room (words : List UInt32) (code : List (List UInt32)) (inputs : List (Option Bool)) : Prop :=
  (words.getD 3 0).toNat + takenIds code inputs < 2 ^ 32

/-- The ids of coordinates as numbers. -/
theorem Run.ids (run : Run g inputs words code keys plan middle pieces s)
    (room : Room words code inputs) : ∃ first, CoordinateIds plan.coordinate first ∧
      first = (words.getD 3 0).toNat + keys.length + extraIds (fragCoord code) ∧
      middle.toNat = first + 7 ∧
      (fragCoord code = none →
        plan.coordinate.coordVar.toNat = (words.getD 3 0).toNat + keys.length) := by
  unfold Room at room
  rw [takenIds_eq run] at room
  obtain ⟨coordVar, pointer, vec2, int, ivec2, lod0, zero, one, middle_eq⟩ := run.coordinate_eq
  have first : (words.getD 3 0 + UInt32.ofNat (keys.length + extraIds (fragCoord code))).toNat =
      (words.getD 3 0).toNat + keys.length + extraIds (fragCoord code) := by
    rw [toNat_add_ofNat (by omega), Nat.add_assoc]
  have place : ∀ n ≤ 7, (words.getD 3 0 +
      UInt32.ofNat (keys.length + extraIds (fragCoord code)) + UInt32.ofNat n).toNat =
      (words.getD 3 0).toNat + keys.length + extraIds (fragCoord code) + n := by
    intro n le
    rw [toNat_add_ofNat (by rw [first]; omega), first]
  refine ⟨_, ⟨pointer ▸ first, vec2 ▸ place 1 (by decide), int ▸ place 2 (by decide),
    ivec2 ▸ place 3 (by decide), lod0 ▸ place 4 (by decide), zero ▸ place 5 (by decide),
    one ▸ place 6 (by decide)⟩, rfl, middle_eq ▸ place 7 (by decide), fun none => ?_⟩
  rw [coordVar, none]
  exact toNat_add_ofNat (by omega)

/-- The ids of handles. -/
theorem Run.handle_id (run : Run g inputs words code keys plan middle pieces s)
    (room : Room words code inputs) {kind : Bool} {table : IdMap UInt32} {key : UInt32}
    (of : TableOf (words.getD 3 0) keys kind table) (found : table key = some id) :
    ∃ k, keys[k]? = some (kind, key) ∧ id.toNat = (words.getD 3 0).toNat + k ∧ k < keys.length := by
  unfold Room at room
  rw [takenIds_eq run] at room
  obtain ⟨k, there, rfl⟩ := (of key id).mp found
  have inside : k < keys.length := (List.getElem?_eq_some_iff.mp there).1
  exact ⟨k, there, toNat_add_ofNat (by omega), inside⟩

/-- Ids of the module are old. -/
theorem Run.old (run : Run g inputs words code keys plan middle pieces s) (member : i ∈ code)
    (mention : id ∈ g.mentions i) : id.toNat < (words.getD 3 0).toNat :=
  UInt32.lt_iff_toNat_lt.mp (run.wf.numbered.bounded i member id mention)

theorem find_type {p : List UInt32 → Bool} {id : UInt32}
    (found : (code.find? p).map (·.getD 1 0) = some id) :
    ∃ t ∈ code, p t = true ∧ t.getD 1 0 = id := by
  obtain ⟨t, first, same⟩ := Option.map_eq_some_iff.mp found
  exact ⟨t, List.mem_of_find?_eq_some first, List.find?_some first, same⟩

theorem Run.float_mem (run : Run g inputs words code keys plan middle pieces s) :
    plan.coordinate.float ∈ g.results code := by
  obtain ⟨t, member, is, same⟩ := find_type run.planned.float
  rw [Bool.and_eq_true, Bool.and_eq_true, beq_iff_eq, beq_iff_eq] at is
  obtain ⟨⟨op, length⟩, _⟩ := is
  refine Dialect.mem_results_of_mem member ?_
  rw [← same]
  exact (Dialect.result_type (by rw [op]; decide) (by rw [op]; decide) (by omega)).1

theorem Run.vec4_mem (run : Run g inputs words code keys plan middle pieces s) :
    plan.coordinate.vec4 ∈ g.results code := by
  obtain ⟨t, member, is, same⟩ := find_type run.planned.vec4
  rw [Bool.and_eq_true, Bool.and_eq_true, Bool.and_eq_true, beq_iff_eq, beq_iff_eq] at is
  obtain ⟨⟨⟨op, length⟩, _⟩, _⟩ := is
  refine Dialect.mem_results_of_mem member ?_
  rw [← same]
  exact (Dialect.result_type (by rw [op]; decide) (by rw [op]; decide) (by omega)).1

theorem Run.own_mem (run : Run g inputs words code keys plan middle pieces s)
    (own : fragCoord code = some id) :
    plan.coordinate.coordVar = id ∧ id ∈ g.results code := by
  refine ⟨?_, ?_⟩
  · rw [run.coordinate_eq.1, own]
    rfl
  · obtain ⟨pointer, typed, _⟩ := run.planned.variableOf id own
    obtain ⟨v, member, op, long, same, _⟩ := variableTypes_eq_some typed
    refine Dialect.mem_results_of_mem member ?_
    rw [← same]
    exact (Dialect.result_value (by rw [op]; decide) (by omega)).1

theorem Run.result_lt (run : Run g inputs words code keys plan middle pieces s)
    (defined : id ∈ g.results code) : id.toNat < (words.getD 3 0).toNat := by
  obtain ⟨i, member, defines⟩ := Dialect.mem_results.mp defined
  exact run.old member (Dialect.mem_mentions.mpr (.inl defines))

end Ids

/-! ## What turns define -/

section Results

variable {g : Dialect} {inputs : List (Option Bool)} {words i j : List UInt32}
  {code : List (List UInt32)} {keys : List (Bool × UInt32)} {plan : Plan} {middle id : UInt32}
  {pieces : List Patch} {s : State} {next next' : UInt32} {body : List (List UInt32)}

/-- The words of an image type. -/
theorem exists_image (long : 9 ≤ i.length) : ∃ first id sampled dim depth arrayed ms use format rest,
    i = first :: id :: sampled :: dim :: depth :: arrayed :: ms :: use :: format :: rest := by
  match i, long with
  | first :: id :: sampled :: dim :: depth :: arrayed :: ms :: use :: format :: rest, _ =>
    exact ⟨first, id, sampled, dim, depth, arrayed, ms, use, format, rest, rfl⟩

/-- The ids of the image types that replace one. -/
theorem image_ids (long : 9 ≤ i.length) (short : i.length < 65536) (ty : UInt32) :
    (g.resultOf (emit 25 (sampledType i)) = some (i.getD 1 0) ∧
      g.usesOf (emit 25 (sampledType i)) = [i.getD 2 0]) ∧
    g.resultOf (emit 25 (depthType ty i)) = some ty ∧
      g.usesOf (emit 25 (depthType ty i)) = [i.getD 2 0] := by
  obtain ⟨first, id, sampled, dim, depth, arrayed, ms, use, format, rest, rfl⟩ := exists_image long
  have length : (sampledType (first :: id :: sampled :: dim :: depth :: arrayed :: ms :: use ::
      format :: rest)).length + 1 < 65536 := short
  have length' : (depthType ty (first :: id :: sampled :: dim :: depth :: arrayed :: ms :: use ::
      format :: rest)).length + 1 < 65536 := short
  rw [Dialect.resultOf_emit (by decide) length, Dialect.usesOf_emit (by decide) length,
    Dialect.resultOf_emit (by decide) length', Dialect.usesOf_emit (by decide) length']
  exact ⟨⟨(g.type 25 (by decide) (by decide) _ _).1, g.wrapper 25 (by decide) _ _ _⟩,
    (g.type 25 (by decide) (by decide) _ _).1, g.wrapper 25 (by decide) _ _ _⟩

/-- The ids of a pointer type that is written. -/
theorem pointer_ids (copy storage ty : UInt32) :
    g.resultOf (emit 32 [copy, storage, ty]) = some copy ∧
      g.usesOf (emit 32 [copy, storage, ty]) = [ty] := by
  rw [Dialect.usesOf_emit_three (by decide), g.pointer]
  exact ⟨Dialect.resultOf_emit_type (by decide) (by decide) (by decide : 2 + 2 < 65536), rfl⟩

/-- The ids of a variable with another type. -/
theorem declaration_ids (long : 4 ≤ i.length) (short : i.length < 65536) (op : opcode i = 59)
    (pointer : UInt32) :
    g.resultOf (emit 59 ((i.drop 1).set 0 pointer)) = g.resultOf i ∧
      ∀ id ∈ g.usesOf (emit 59 ((i.drop 1).set 0 pointer)), id = pointer ∨ id ∈ g.usesOf i := by
  have result : g.resultOf i = some (i.getD 2 0) :=
    (Dialect.result_value (by rw [op]; decide) (by omega)).1
  rw [result, Dialect.uses_declaration op long]
  obtain ⟨first, type, id, storage, init, rfl⟩ := exists_words long
  have length : (pointer :: id :: storage :: init).length + 1 < 65536 := short
  have shape : ((first :: type :: id :: storage :: init).drop 1).set 0 pointer =
    pointer :: id :: storage :: init := rfl
  rw [shape, Dialect.resultOf_emit (by decide) length, Dialect.usesOf_emit (by decide) length,
    g.declaration]
  refine ⟨(g.value 59 (by decide) _ _ _).1, fun other use => ?_⟩
  rcases List.mem_cons.mp use with rfl | use
  · exact .inl rfl
  · exact .inr (List.mem_cons_of_mem _ use)

/-- The ids of a load with another type. -/
theorem load_ids (long : 4 ≤ i.length) (short : i.length < 65536) (op : opcode i = 61)
    (type : UInt32) :
    g.resultOf (emit 61 ((i.drop 1).set 0 type)) = g.resultOf i ∧
      ∀ id ∈ g.usesOf (emit 61 ((i.drop 1).set 0 type)), id = type ∨ id ∈ g.usesOf i := by
  have result : g.resultOf i = some (i.getD 2 0) :=
    (Dialect.result_value (by rw [op]; decide) (by omega)).1
  rw [result, Dialect.uses_load op long]
  obtain ⟨first, old, id, pointer, access, rfl⟩ := exists_words long
  have length : (type :: id :: pointer :: access).length + 1 < 65536 := short
  have shape : ((first :: old :: id :: pointer :: access).drop 1).set 0 type =
    type :: id :: pointer :: access := rfl
  rw [shape, Dialect.resultOf_emit (by decide) length, Dialect.usesOf_emit (by decide) length,
    g.load]
  refine ⟨(g.value 61 (by decide) _ _ _).1, fun other use => ?_⟩
  rcases List.mem_cons.mp use with rfl | use
  · exact .inl rfl
  · exact .inr (List.mem_cons_of_mem _ use)

/-- The ids that the instructions for a texel define and use. -/
theorem fetchTexel_ids (c : Coordinate) (depth : Bool) (next : UInt32) (i : List UInt32) :
    g.results (fetchTexel c depth next i).1 =
      (if depth then [next, next + 1, next + 2, next + 3, next + 4, i.getD 2 0]
        else [next, next + 1, next + 2, i.getD 2 0]) ∧
    ∀ j ∈ (fetchTexel c depth next i).1, ∀ id ∈ g.usesOf j, id ∈ [c.float, c.vec4, c.coordVar,
      c.vec2, c.ivec2, c.lod0, c.zero, c.one, i.getD 3 0] ∨
      id ∈ (if depth then [next, next + 1, next + 2, next + 3, next + 4]
        else [next, next + 1, next + 2]) := by
  have position := g.ids_emit_value 61 c.vec4 next [c.coordVar] (by decide)
    (show 1 + 3 < 65536 by decide)
  have xy := g.ids_emit_value 79 c.vec2 (next + 1) [next, next, 0, 1] (by decide)
    (show 4 + 3 < 65536 by decide)
  have pixel := g.ids_emit_value 110 c.ivec2 (next + 2) [next + 1] (by decide)
    (show 1 + 3 < 65536 by decide)
  have fetch := fun id => g.ids_emit_value 95 c.vec4 id [i.getD 3 0, next + 2, 2, c.lod0]
    (by decide) (show 4 + 3 < 65536 by decide)
  have red := g.ids_emit_value 81 c.float (next + 4) [next + 3, 0] (by decide)
    (show 2 + 3 < 65536 by decide)
  have texel := g.ids_emit_value 80 c.vec4 (i.getD 2 0) [next + 4, c.zero, c.zero, c.one]
    (by decide) (show 4 + 3 < 65536 by decide)
  rw [g.load, Dialect.memory_nil] at position
  rw [g.twoOperands 79 (by decide)] at xy
  rw [g.oneOperand 110 (by decide)] at pixel
  simp only [g.fetchLevel] at fetch
  rw [g.oneOperand 81 (by decide)] at red
  rw [g.allOperands 80 (by decide)] at texel
  cases depth with
  | false =>
    have shape : (fetchTexel c false next i).1 = [emit 61 [c.vec4, next, c.coordVar],
      emit 79 [c.vec2, next + 1, next, next, 0, 1], emit 110 [c.ivec2, next + 2, next + 1],
      emit 95 [c.vec4, i.getD 2 0, i.getD 3 0, next + 2, 2, c.lod0]] := rfl
    rw [shape]
    constructor
    · simp only [Dialect.results, List.flatMap_cons, List.flatMap_nil, position.1, xy.1, pixel.1,
        (fetch _).1]
      rfl
    · simp only [List.forall_mem_cons, position.2.2, xy.2.2, pixel.2.2, (fetch _).2.2]
      simp
  | true =>
    have shape : (fetchTexel c true next i).1 = [emit 61 [c.vec4, next, c.coordVar],
      emit 79 [c.vec2, next + 1, next, next, 0, 1], emit 110 [c.ivec2, next + 2, next + 1],
      emit 95 [c.vec4, next + 3, i.getD 3 0, next + 2, 2, c.lod0],
      emit 81 [c.float, next + 4, next + 3, 0],
      emit 80 [c.vec4, i.getD 2 0, next + 4, c.zero, c.zero, c.one]] := rfl
    rw [shape]
    constructor
    · simp only [Dialect.results, List.flatMap_cons, List.flatMap_nil, position.1, xy.1, pixel.1,
        (fetch _).1, red.1, texel.1]
      rfl
    · simp only [List.forall_mem_cons, position.2.2, xy.2.2, pixel.2.2, (fetch _).2.2, red.2.2,
        texel.2.2]
      simp

theorem Run.length_lt (run : Run g inputs words code keys plan middle pieces s)
    (member : i ∈ code) : i.length < 65536 :=
  ((framed_of_instructions run.wf.framed).2.2 i member).length_lt

/-- The ids of types and pointers that are copied. -/
theorem Run.copyIds_mem (run : Run g inputs words code keys plan middle pieces s)
    (room : Room words code inputs) (member : id ∈ copyIds plan i) :
    (words.getD 3 0).toNat ≤ id.toNat ∧ id.toNat < (words.getD 3 0).toNat + keys.length := by
  unfold copyIds at member
  have handle : ∀ {kind : Bool} {table : IdMap UInt32} {key : UInt32},
      TableOf (words.getD 3 0) keys kind table → id ∈ (table key).toList →
      (words.getD 3 0).toNat ≤ id.toNat ∧ id.toNat < (words.getD 3 0).toNat + keys.length := by
    intro kind table key of listed
    obtain ⟨k, _, same, inside⟩ := run.handle_id room of (Option.mem_toList.mp listed)
    omega
  split at member
  · exact handle run.planned.handled.types member
  split at member
  · exact handle run.planned.handled.pointers member
  · cases member

/-- A turn defines what its instruction does, the ids of copies, and those that it takes. -/
theorem Turn.results (turn : Turn code inputs plan next i body next')
    (run : Run g inputs words code keys plan middle pieces s) (room : Room words code inputs)
    (member : i ∈ code) (above : middle.toNat ≤ next.toNat)
    (entries : ∀ e ∈ code, fragCoord code = none → FragmentEntry e → e.length < 65535)
    (after : next'.toNat = next.toNat + readIds code inputs i) :
    (g.results body).Nodup ∧ ∀ id ∈ g.results body,
      id ∈ (g.resultOf i).toList ++ copyIds plan i ∨
        (next.toNat ≤ id.toNat ∧ id.toNat < next'.toNat) := by
  have short := run.length_lt member
  have long := run.long i member
  obtain ⟨first, _, first_eq, middle_eq, _⟩ := run.ids room
  have nothing : ∀ ids : List UInt32, ids = [] → ids.Nodup ∧ ∀ id ∈ ids,
      id ∈ (g.resultOf i).toList ++ copyIds plan i ∨
        (next.toNat ≤ id.toNat ∧ id.toNat < next'.toNat) := by
    rintro ids rfl
    exact ⟨List.nodup_nil, fun id none => absurd none List.not_mem_nil⟩
  have same : ∀ j, g.resultOf j = g.resultOf i → (g.results [j]).Nodup ∧ ∀ id ∈ g.results [j],
      id ∈ (g.resultOf i).toList ++ copyIds plan i ∨
        (next.toNat ≤ id.toNat ∧ id.toNat < next'.toNat) := by
    intro j same
    refine ⟨Dialect.nodup_results_singleton, fun id defined => .inl ?_⟩
    rw [Dialect.results_singleton, same] at defined
    exact List.mem_append_left _ defined
  cases turn with
  | capability op capability => exact nothing _ rfl
  | index index => exact nothing _ rfl
  | entryPoint entry other =>
    obtain ⟨four, _⟩ := run.wf.named i member entry.op
    obtain ⟨w, model, function, name, rest, rfl⟩ := exists_words four
    have fits := entries _ member other entry
    have length : (model :: function :: (name :: rest ++ [plan.coordinate.coordVar])).length + 1 <
        65536 := by
      simp only [List.length_cons, List.length_append, List.length_nil] at fits ⊢
      omega
    refine nothing _ ?_
    have shape : (w :: model :: function :: name :: rest).drop 1 ++ [plan.coordinate.coordVar] =
      model :: function :: (name :: rest ++ [plan.coordinate.coordVar]) := rfl
    rw [shape, Dialect.results_singleton, Dialect.resultOf_emit (by decide) length,
      (g.entryPoint _ _ _).1]
    rfl
  | type op subpass =>
    rw [op] at long
    have result := (Dialect.result_type (g := g) (by rw [op]; decide) (by rw [op]; decide)
      (Nat.le_trans (by decide) long)).1
    have old := run.old member (Dialect.mem_mentions.mpr (.inl result))
    have copies : copyIds plan i = (plan.handles.depthTypes (i.getD 1 0)).toList := if_pos op
    have sampled := (image_ids (g := g) long short 0).1.1
    cases found : plan.handles.depthTypes (i.getD 1 0) with
    | none => exact same _ (sampled.trans result.symm)
    | some ty =>
      have listed : ty ∈ copyIds plan i := by
        rw [copies, found]
        exact List.mem_cons_self
      have new := (run.copyIds_mem room listed).1
      have shape : g.results (emit 25 (sampledType i) :: (some ty).toList.map fun ty =>
          emit 25 (depthType ty i)) = [i.getD 1 0, ty] := by
        show g.results [_, _] = _
        rw [Dialect.results_pair, sampled, (image_ids long short ty).2.1]
        rfl
      rw [shape]
      refine ⟨List.nodup_cons.mpr ⟨fun h => ?_, List.pairwise_singleton _ _⟩, fun id h => .inl ?_⟩
      · rw [List.mem_singleton.mp h] at old
        omega
      · rcases List.mem_cons.mp h with rfl | h
        · exact List.mem_append_left _ (Option.mem_toList.mpr result)
        · exact List.mem_append_right _ (List.mem_singleton.mp h ▸ listed)
  | pointer copy ty op found typed =>
    rw [op] at long
    have result := (Dialect.result_type (g := g) (by rw [op]; decide) (by rw [op]; decide)
      (Nat.le_trans (by decide) long)).1
    have old := run.old member (Dialect.mem_mentions.mpr (.inl result))
    have listed : copy ∈ copyIds plan i := by
      unfold copyIds
      rw [if_neg (by rw [op]; decide), if_pos op, found]
      exact List.mem_cons_self
    have new := (run.copyIds_mem room listed).1
    rw [Dialect.results_pair, result, (pointer_ids copy _ ty).1]
    refine ⟨List.nodup_cons.mpr ⟨fun h => ?_, List.pairwise_singleton _ _⟩, fun id h => .inl ?_⟩
    · rw [List.mem_singleton.mp h] at old
      omega
    · rcases List.mem_cons.mp h with rfl | h
      · exact List.mem_append_left _ List.mem_cons_self
      · exact List.mem_append_right _ (List.mem_singleton.mp h ▸ listed)
  | declaration pointer op depth found =>
    rw [op] at long
    exact same _ (declaration_ids long short op pointer).1
  | load ty type depth op subpass found retyped =>
    rw [op] at long
    exact same _ (load_ids long short op type).1
  | kept _ _ _ _ _ _ _ _ => exact same i rfl
  | read l depth op length loaded subpass attached zero type =>
    have result : g.resultOf i = some (i.getD 2 0) :=
      (Dialect.result_value (by rw [op]; decide) (by omega)).1
    have old := run.old member (Dialect.mem_mentions.mpr (.inl result))
    rw [readIds_loaded run.wf run.long op loaded subpass attached] at after
    have fits := (fetchTexel plan.coordinate depth next i).2.toNat_lt
    rw [(fetchTexel_ids _ _ _ _).1, result]
    generalize (fetchTexel plan.coordinate depth next i).2 = next' at after fits ⊢
    have distinct : ∀ ids : List UInt32, (ids.map UInt32.toNat).Nodup →
        (∀ id ∈ ids.map UInt32.toNat, id = (i.getD 2 0).toNat ∨
          (next.toNat ≤ id ∧ id < next'.toNat)) →
        ids.Nodup ∧ ∀ id ∈ ids, id ∈ (some (i.getD 2 0)).toList ++ copyIds plan i ∨
          (next.toNat ≤ id.toNat ∧ id.toNat < next'.toNat) := by
      intro ids nodup place
      refine ⟨nodup.of_map _, fun id listed => ?_⟩
      rcases place _ (List.mem_map_of_mem listed) with mine | new
      · exact .inl (List.mem_append_left _ (UInt32.toNat_inj.mp mine ▸ List.mem_cons_self))
      · exact .inr new
    cases depth with
    | false =>
      rw [if_neg Bool.false_ne_true] at after ⊢
      have one : (next + 1).toNat = next.toNat + 1 := toNat_add_ofNat (k := 1) (by omega)
      have two : (next + 2).toNat = next.toNat + 2 := toNat_add_ofNat (k := 2) (by omega)
      refine distinct _ ?_ ?_
      · simp only [List.map_cons, List.map_nil, one, two, List.nodup_cons, List.mem_cons,
          List.not_mem_nil, or_false, not_false_eq_true, List.nodup_nil, and_true]
        omega
      · simp only [List.map_cons, List.map_nil, one, two, List.mem_cons, List.not_mem_nil, or_false]
        omega
    | true =>
      rw [if_pos rfl] at after ⊢
      have one : (next + 1).toNat = next.toNat + 1 := toNat_add_ofNat (k := 1) (by omega)
      have two : (next + 2).toNat = next.toNat + 2 := toNat_add_ofNat (k := 2) (by omega)
      have three : (next + 3).toNat = next.toNat + 3 := toNat_add_ofNat (k := 3) (by omega)
      have four : (next + 4).toNat = next.toNat + 4 := toNat_add_ofNat (k := 4) (by omega)
      refine distinct _ ?_ ?_
      · simp only [List.map_cons, List.map_nil, one, two, three, four, List.nodup_cons,
          List.mem_cons, List.not_mem_nil, or_false, not_false_eq_true, List.nodup_nil, and_true]
        omega
      · simp only [List.map_cons, List.map_nil, one, two, three, four, List.mem_cons,
          List.not_mem_nil, or_false]
        omega

/-- The ids of a turn are known in the middle of the run, or are those that it takes. -/
theorem Turn.mentions (turn : Turn code inputs plan next i body next')
    (run : Run g inputs words code keys plan middle pieces s) (room : Room words code inputs)
    (member : i ∈ code) (above : middle.toNat ≤ next.toNat)
    (entries : ∀ e ∈ code, fragCoord code = none → FragmentEntry e → e.length < 65535)
    (after : next'.toNat = next.toNat + readIds code inputs i) (written : j ∈ body)
    (mention : id ∈ g.mentions j) :
    id.toNat < middle.toNat ∨ (next.toNat ≤ id.toNat ∧ id.toNat < next'.toNat) := by
  have short := run.length_lt member
  have long := run.long i member
  obtain ⟨first, ids, first_eq, middle_eq, coordVar⟩ := run.ids room
  have old : ∀ id ∈ g.mentions i, id.toNat < middle.toNat := by
    intro id mention
    have below := run.old member mention
    omega
  have handle : ∀ {kind : Bool} {table : IdMap UInt32} {key id : UInt32},
      TableOf (words.getD 3 0) keys kind table → table key = some id → id.toNat < middle.toNat := by
    intro kind table key id of found
    obtain ⟨k, _, same, inside⟩ := run.handle_id room of found
    omega
  have coordinate : plan.coordinate.coordVar.toNat < middle.toNat := by
    cases own : fragCoord code with
    | none =>
      have place := coordVar own
      omega
    | some id =>
      obtain ⟨same, defined⟩ := run.own_mem own
      have below := run.result_lt defined
      rw [same]
      omega
  -- What is written defines an id of the instruction, of a copy, or a new one.
  rcases Dialect.mem_mentions.mp mention with result | use
  · have defined : id ∈ g.results body := Dialect.mem_results_of_mem written result
    rcases (turn.results run room member above entries after).2 id defined with mine | new
    · refine .inl ?_
      rcases List.mem_append.mp mine with mine | copy
      · exact old id (Dialect.mem_mentions.mpr (.inl (Option.mem_toList.mp mine)))
      · have new := run.copyIds_mem room copy
        omega
    · exact .inr new
  cases turn with
  | capability op capability => cases written
  | index index => cases written
  | entryPoint entry other =>
    obtain ⟨four, named⟩ := run.wf.named i member entry.op
    obtain ⟨w, model, function, name, rest, rfl⟩ := exists_words four
    have fits := entries _ member other entry
    have length : (model :: function :: (name :: rest ++ [plan.coordinate.coordVar])).length + 1 <
        65536 := by
      simp only [List.length_cons, List.length_append, List.length_nil] at fits ⊢
      omega
    have shape : (w :: model :: function :: name :: rest).drop 1 ++ [plan.coordinate.coordVar] =
      model :: function :: (name :: rest ++ [plan.coordinate.coordVar]) := rfl
    obtain rfl := List.mem_singleton.mp written
    have after : afterString (name :: rest ++ [plan.coordinate.coordVar]) =
        afterString (name :: rest) ++ [plan.coordinate.coordVar] := afterString_append named
    have uses : g.usesOf (w :: model :: function :: name :: rest) =
        function :: afterString (name :: rest) := by
      rw [Dialect.usesOf, entry.op]
      exact (g.entryPoint _ _ _).2
    rw [shape, Dialect.usesOf_emit (by decide) length, (g.entryPoint _ _ _).2, after] at use
    rcases List.mem_cons.mp use with rfl | use
    · exact .inl (old _ (Dialect.mem_mentions.mpr (.inr (uses ▸ List.mem_cons_self))))
    · rcases List.mem_append.mp use with use | last
      · exact .inl (old _ (Dialect.mem_mentions.mpr (.inr (uses ▸ List.mem_cons_of_mem _ use))))
      · exact .inl (List.mem_singleton.mp last ▸ coordinate)
  | type op subpass =>
    rw [op] at long
    have sampled : i.getD 2 0 ∈ g.usesOf i := by
      obtain ⟨_, id, sampled, dim, depth, arrayed, ms, use, format, rest, rfl⟩ := exists_image long
      rw [Dialect.usesOf, op]
      have law := g.wrapper 25 (by decide) id sampled
        (dim :: depth :: arrayed :: ms :: use :: format :: rest)
      exact law ▸ List.mem_cons_self
    have each : id ∈ [i.getD 2 0] → id.toNat < middle.toNat := fun listed =>
      old id (Dialect.mem_mentions.mpr (.inr (List.mem_singleton.mp listed ▸ sampled)))
    rcases List.mem_cons.mp written with rfl | written
    · rw [(image_ids long short 0).1.2] at use
      exact .inl (each use)
    · obtain ⟨ty, _, rfl⟩ := List.mem_map.mp written
      rw [(image_ids long short ty).2.2] at use
      exact .inl (each use)
  | pointer copy ty op found typed =>
    rcases List.mem_cons.mp written with rfl | written
    · exact .inl (old id mention)
    · obtain rfl := List.mem_singleton.mp written
      rw [(pointer_ids copy _ ty).2] at use
      exact .inl (List.mem_singleton.mp use ▸ handle run.planned.handled.types typed)
  | declaration pointer op depth found =>
    rw [op] at long
    obtain rfl := List.mem_singleton.mp written
    rcases (declaration_ids long short op pointer).2 id use with rfl | use
    · exact .inl (handle run.planned.handled.pointers found)
    · exact .inl (old id (Dialect.mem_mentions.mpr (.inr use)))
  | load ty type depth op subpass found retyped =>
    have four := long
    rw [op] at four
    obtain rfl := List.mem_singleton.mp written
    rcases (load_ids four short op type).2 id use with rfl | use
    · refine .inl ?_
      cases depth with
      | true => exact handle run.planned.handled.types (by rwa [if_pos rfl] at retyped)
      | false =>
        rw [if_neg Bool.false_ne_true] at retyped
        refine old id (Dialect.mem_mentions.mpr (.inr ?_))
        rw [Dialect.uses_load op four, retyped]
        exact List.mem_cons_self
    · exact .inl (old id (Dialect.mem_mentions.mpr (.inr use)))
  | kept _ _ _ _ _ _ _ _ =>
    obtain rfl := List.mem_singleton.mp written
    exact .inl (old id mention)
  | read l depth op length loaded subpass attached zero type =>
    have fits := (fetchTexel plan.coordinate depth next i).2.toNat_lt
    rw [readIds_loaded run.wf run.long op loaded subpass attached] at after
    have image : (i.getD 3 0).toNat < middle.toNat := by
      have length := run.long l loaded.1
      rw [loaded.2.1] at length
      have result : g.resultOf l = some (i.getD 3 0) :=
        (Dialect.result_value (by rw [loaded.2.1]; decide)
          (Nat.le_trans (by decide) length)).1.trans (congrArg some loaded.2.2)
      have below := run.old loaded.1 (Dialect.mem_mentions.mpr (.inl result))
      omega
    have float := run.result_lt run.float_mem
    have vec4 := run.result_lt run.vec4_mem
    rcases (fetchTexel_ids _ _ _ _).2 j written id use with known | new
    · refine .inl ?_
      simp only [List.mem_cons, List.not_mem_nil, or_false] at known
      rcases known with rfl | rfl | rfl | rfl | rfl | rfl | rfl | rfl | rfl
      · omega
      · omega
      · exact coordinate
      · rw [ids.vec2]; omega
      · rw [ids.ivec2]; omega
      · rw [ids.lod0]; omega
      · rw [ids.zero]; omega
      · rw [ids.one]; omega
      · exact image
    · refine .inr ?_
      cases depth with
      | false =>
        rw [if_neg Bool.false_ne_true] at after new
        have one : (next + 1).toNat = next.toNat + 1 := toNat_add_ofNat (k := 1) (by omega)
        have two : (next + 2).toNat = next.toNat + 2 := toNat_add_ofNat (k := 2) (by omega)
        simp only [List.mem_cons, List.not_mem_nil, or_false] at new
        rcases new with rfl | rfl | rfl <;> omega
      | true =>
        rw [if_pos rfl] at after new
        have one : (next + 1).toNat = next.toNat + 1 := toNat_add_ofNat (k := 1) (by omega)
        have two : (next + 2).toNat = next.toNat + 2 := toNat_add_ofNat (k := 2) (by omega)
        have three : (next + 3).toNat = next.toNat + 3 := toNat_add_ofNat (k := 3) (by omega)
        have four : (next + 4).toNat = next.toNat + 4 := toNat_add_ofNat (k := 4) (by omega)
        simp only [List.mem_cons, List.not_mem_nil, or_false] at new
        rcases new with rfl | rfl | rfl | rfl | rfl <;> omega

end Results

/-! ## The module that is written -/

section Numbered

variable {g : Dialect} {inputs : List (Option Bool)} {words i j : List UInt32}
  {code : List (List UInt32)} {keys : List (Bool × UInt32)} {plan : Plan} {middle id : UInt32}
  {pieces : List Patch} {s : State}

/-- The ids of the sections. -/
theorem sections_ids (c : Coordinate) (own : Option UInt32) :
    g.results (c.sections own) = [c.vec2, c.int, c.ivec2, c.lod0, c.zero, c.one] ++
      (if own.isSome then [] else [c.coordPointer, c.coordVar]) ∧
    ∀ j ∈ c.sections own, ∀ id ∈ g.usesOf j, id ∈ [c.coordVar, c.float, c.int, c.vec4] ∨
      (own = none ∧ id = c.coordPointer) := by
  have vec2 : g.resultOf (emit 23 [c.vec2, c.float, 2]) = some c.vec2 :=
    Dialect.resultOf_emit_type (by decide) (by decide) (by decide : 2 + 2 < 65536)
  have int : g.resultOf (emit 21 [c.int, 32, 1]) = some c.int :=
    Dialect.resultOf_emit_type (by decide) (by decide) (by decide : 2 + 2 < 65536)
  have ivec2 : g.resultOf (emit 23 [c.ivec2, c.int, 2]) = some c.ivec2 :=
    Dialect.resultOf_emit_type (by decide) (by decide) (by decide : 2 + 2 < 65536)
  have constant : ∀ type id word : UInt32, g.resultOf (emit 43 [type, id, word]) = some id ∧
      g.usesOf (emit 43 [type, id, word]) = [type] := by
    intro type id word
    rw [Dialect.usesOf_emit_three (by decide), g.constant]
    exact ⟨Dialect.resultOf_emit_value (by decide) (show 1 + 3 < 65536 by decide), rfl⟩
  have vector_uses : ∀ id part word : UInt32, g.usesOf (emit 23 [id, part, word]) = [part] := by
    intro id part word
    rw [Dialect.usesOf_emit_three (by decide), g.wrapper 23 (by decide)]
  have int_uses : g.usesOf (emit 21 [c.int, 32, 1]) = [] := by
    rw [Dialect.usesOf_emit_three (by decide), g.number 21 (by decide)]
  have annotation : g.resultOf (emit 71 [c.coordVar, 11, 15]) = none ∧
      g.usesOf (emit 71 [c.coordVar, 11, 15]) = [c.coordVar] := by
    have length : [c.coordVar, 11, 15].length + 1 < 65536 := show 3 + 1 < 65536 by decide
    rw [Dialect.resultOf_emit (by decide) length, Dialect.usesOf_emit_three (by decide)]
    exact g.annotation 71 (by decide) _ _
  have pointer := pointer_ids (g := g) c.coordPointer 1 c.vec4
  have declared : g.resultOf (emit 59 [c.coordPointer, c.coordVar, 1]) = some c.coordVar ∧
      g.usesOf (emit 59 [c.coordPointer, c.coordVar, 1]) = [c.coordPointer] := by
    rw [Dialect.usesOf_emit_three (by decide), g.declaration]
    exact ⟨Dialect.resultOf_emit_value (by decide) (show 1 + 3 < 65536 by decide), rfl⟩
  cases own with
  | none =>
    have shape : c.sections none = emit 71 [c.coordVar, 11, 15] :: (c.constants ++ c.input) := rfl
    rw [shape, Coordinate.constants, Coordinate.input]
    constructor
    · simp only [Dialect.results, List.flatMap_cons, List.flatMap_nil, List.cons_append,
        List.nil_append, vec2, int, ivec2, (constant _ _ _).1, annotation.1, pointer.1, declared.1]
      rfl
    · simp only [List.cons_append, List.nil_append, List.forall_mem_cons, annotation.2,
        vector_uses, int_uses, (constant _ _ _).2, pointer.2, declared.2]
      simp
  | some id =>
    have shape : c.sections (some id) = c.constants := List.append_nil _
    rw [shape, Coordinate.constants]
    constructor
    · simp only [Dialect.results, List.flatMap_cons, List.flatMap_nil, vec2, int, ivec2,
        (constant _ _ _).1]
      rfl
    · simp only [List.forall_mem_cons, vector_uses, int_uses, (constant _ _ _).2]
      simp

/-- The ids of copies are those of keys. -/
theorem Run.copyIds_key (run : Run g inputs words code keys plan middle pieces s)
    (room : Room words code inputs) (member : i ∈ code) (listed : id ∈ copyIds plan i) :
    ∃ (k : Nat) (kind : Bool), keys[k]? = some (kind, i.getD 1 0) ∧
      id.toNat = (words.getD 3 0).toNat + k ∧ g.resultOf i = some (i.getD 1 0) := by
  have long := run.long i member
  unfold copyIds at listed
  split at listed
  · rename_i op
    rw [op] at long
    obtain ⟨k, there, same, _⟩ :=
      run.handle_id room run.planned.handled.types (Option.mem_toList.mp listed)
    exact ⟨k, false, there, same, (Dialect.result_type (by rw [op]; decide) (by rw [op]; decide)
      (Nat.le_trans (by decide) long)).1⟩
  split at listed
  · rename_i op
    rw [op] at long
    obtain ⟨k, there, same, _⟩ :=
      run.handle_id room run.planned.handled.pointers (Option.mem_toList.mp listed)
    exact ⟨k, true, there, same, (Dialect.result_type (by rw [op]; decide) (by rw [op]; decide)
      (Nat.le_trans (by decide) long)).1⟩
  · cases listed

/-- No id is that of two copies. -/
theorem Run.copies_nodup (run : Run g inputs words code keys plan middle pieces s)
    (room : Room words code inputs) : (code.flatMap (copyIds plan)).Nodup := by
  have unique := run.wf.numbered.unique
  rw [Dialect.results, List.nodup_flatMap] at unique
  rw [List.nodup_flatMap]
  refine ⟨fun i member => ?_, unique.2.imp_of_mem fun {i j} hi hj apart => ?_⟩
  · unfold copyIds
    have atMost : ∀ o : Option UInt32, o.toList.Nodup := by
      intro o
      cases o with
      | none => exact List.nodup_nil
      | some id => exact List.pairwise_singleton _ _
    split
    · exact atMost _
    split
    · exact atMost _
    · exact List.nodup_nil
  · intro id first second
    obtain ⟨k, kind, there, same, result⟩ := run.copyIds_key room hi first
    obtain ⟨k', kind', there', same', result'⟩ := run.copyIds_key room hj second
    obtain rfl : k = k' := by omega
    have key := congrArg Prod.snd (Option.some.inj (there.symm.trans there'))
    have key : i.getD 1 0 = j.getD 1 0 := key
    exact apart (Option.mem_toList.mpr result) (Option.mem_toList.mpr (key ▸ result'))

/-- The ids that instructions may define. -/
theorem Run.names_perm (code : List (List UInt32)) :
    (g.results code ++ code.flatMap (copyIds plan)).Perm
      (code.flatMap fun i => (g.resultOf i).toList ++ copyIds plan i) :=
  List.flatMap_append_perm code _ _

theorem Run.supplied (run : Run g inputs words code keys plan middle pieces s)
    (room : Room words code inputs)
    (entries : ∀ e ∈ code, fragCoord code = none → FragmentEntry e → e.length < 65535) :
    Supplied UInt32.toNat (fun i => (g.resultOf i).toList ++ copyIds plan i)
      (fun piece : Patch => g.results piece.body) middle.toNat code pieces s.next.toNat := by
  have total := room
  unfold Room at total
  rw [takenIds_eq run] at total
  obtain ⟨first, _, first_eq, middle_eq, _⟩ := run.ids room
  refine transduce_supplied_of run.run (fun s => s.next.toNat)
    (fun done s => Seen code inputs middle done s) ?_ ?_
  · exact ⟨fun id none => absurd none Bool.false_ne_true,
      fun id depth none => absurd none (Option.some_ne_none _).symm,
      fun l none => absurd none List.not_mem_nil, (UInt32.add_zero middle).symm⟩
  · intro done i rest s₁ piece s₂ split seen turned
    have member : i ∈ code := split ▸ List.mem_append_right _ List.mem_cons_self
    obtain ⟨_, _, _, rewritten⟩ := lowerTurn_eq_ok turned
    have seen : Seen code inputs middle done (sections plan s₁ i).2 :=
      ⟨seen.zeros, seen.loads, seen.loaded, seen.next⟩
    obtain ⟨turn, after⟩ :=
      rewriteInstruction_spec run.wf run.long run.planned split seen rewritten
    have sum : ∀ ids : List UInt32 → Nat,
        (code.map ids).sum = (done.map ids).sum + (ids i + (rest.map ids).sum) := by
      intro ids
      rw [split, List.map_append, List.sum_append, List.map_cons, List.sum_cons]
    have sum := sum (readIds code inputs)
    have place : s₁.next.toNat = middle.toNat + (done.map (readIds code inputs)).sum := by
      rw [show s₁.next = _ from seen.next]
      exact toNat_add_ofNat (by omega)
    have place' : s₂.next.toNat = middle.toNat + (done.map (readIds code inputs)).sum +
        readIds code inputs i := by
      rw [after.next, List.map_append, List.sum_append, List.map_singleton, List.sum_singleton,
        toNat_add_ofNat (by omega), Nat.add_assoc]
    have grown : s₂.next.toNat = s₁.next.toNat + readIds code inputs i := by omega
    exact ⟨after, by omega, turn.results run room member (by show _ ≤ s₁.next.toNat; omega) entries
      grown⟩

/-- The turns, with the ids that they take as numbers. -/
theorem Run.turns_toNat (run : Run g inputs words code keys plan middle pieces s)
    (room : Room words code inputs) :
    List.Forall₂ (fun i piece => ∃ next next', Turn code inputs plan next i piece.body next' ∧
      middle.toNat ≤ next.toNat ∧ next'.toNat = next.toNat + readIds code inputs i ∧
      next'.toNat ≤ s.next.toNat) code pieces := by
  unfold Room at room
  have last := run.next_eq
  have total := room
  rw [takenIds_eq run] at total
  obtain ⟨first, _, first_eq, middle_eq, _⟩ := run.ids room
  refine run.turns.1.imp fun i piece ⟨k, le, turn⟩ => ⟨_, _, turn, ?_, ?_, ?_⟩
  · rw [toNat_add_ofNat (by omega)]
    omega
  · rw [toNat_add_ofNat (by omega), toNat_add_ofNat (by omega), Nat.add_assoc]
  · rw [toNat_add_ofNat (by omega), last, toNat_add_ofNat room, takenIds_eq run]
    omega

/-- The ids of the sections are known in the middle of the run. -/
theorem Run.sections_lt (run : Run g inputs words code keys plan middle pieces s)
    (room : Room words code inputs) (member : j ∈ plan.coordinate.sections (fragCoord code))
    (mention : id ∈ g.mentions j) : id.toNat < middle.toNat := by
  obtain ⟨first, ids, first_eq, middle_eq, coordVar⟩ := run.ids room
  have float := run.result_lt run.float_mem
  have vec4 := run.result_lt run.vec4_mem
  have coordinate : plan.coordinate.coordVar.toNat < middle.toNat := by
    cases own : fragCoord code with
    | none =>
      have place := coordVar own
      omega
    | some id =>
      obtain ⟨same, defined⟩ := run.own_mem own
      have below := run.result_lt defined
      rw [same]
      omega
  have listed : id ∈ [plan.coordinate.coordVar, plan.coordinate.float, plan.coordinate.vec4,
      plan.coordinate.vec2, plan.coordinate.int, plan.coordinate.ivec2, plan.coordinate.lod0,
      plan.coordinate.zero, plan.coordinate.one, plan.coordinate.coordPointer] := by
    obtain ⟨results, uses⟩ := sections_ids (g := g) plan.coordinate (fragCoord code)
    rcases Dialect.mem_mentions.mp mention with result | use
    · have defined := Dialect.mem_results_of_mem member result
      rw [results, List.mem_append] at defined
      rcases defined with constant | input
      · simp only [List.mem_cons, List.not_mem_nil, or_false] at constant ⊢
        tauto
      · split at input
        · cases input
        · simp only [List.mem_cons, List.not_mem_nil, or_false] at input ⊢
          tauto
    · rcases uses j member id use with known | ⟨_, rfl⟩
      · simp only [List.mem_cons, List.not_mem_nil, or_false] at known ⊢
        tauto
      · simp
  simp only [List.mem_cons, List.not_mem_nil, or_false] at listed
  rcases listed with rfl | rfl | rfl | rfl | rfl | rfl | rfl | rfl | rfl | rfl
  · exact coordinate
  · omega
  · omega
  · rw [ids.vec2]; omega
  · rw [ids.int]; omega
  · rw [ids.ivec2]; omega
  · rw [ids.lod0]; omega
  · rw [ids.zero]; omega
  · rw [ids.one]; omega
  · rw [ids.coordPointer]; omega

/-- The sections define new ids, each once. -/
theorem Run.sections_new (run : Run g inputs words code keys plan middle pieces s)
    (room : Room words code inputs) :
    (g.results (plan.coordinate.sections (fragCoord code))).Nodup ∧
      ∀ id ∈ g.results (plan.coordinate.sections (fragCoord code)),
        (words.getD 3 0).toNat + keys.length ≤ id.toNat ∧ id.toNat < middle.toNat := by
  obtain ⟨first, ids, first_eq, middle_eq, coordVar⟩ := run.ids room
  have distinct : ∀ ids : List UInt32, (ids.map UInt32.toNat).Nodup →
      (∀ id ∈ ids.map UInt32.toNat, (words.getD 3 0).toNat + keys.length ≤ id ∧
        id < middle.toNat) →
      ids.Nodup ∧ ∀ id ∈ ids, (words.getD 3 0).toNat + keys.length ≤ id.toNat ∧
        id.toNat < middle.toNat :=
    fun ids nodup place => ⟨nodup.of_map _, fun id listed => place _ (List.mem_map_of_mem listed)⟩
  rw [(sections_ids _ _).1]
  cases own : fragCoord code with
  | none =>
    have place := coordVar own
    rw [own] at first_eq
    have extra : extraIds (none : Option UInt32) = 1 := rfl
    refine distinct _ ?_ ?_
    · simp only [Option.isSome_none, Bool.false_eq_true, if_false, List.cons_append,
        List.nil_append, List.map_cons, List.map_nil, ids.vec2, ids.int, ids.ivec2, ids.lod0,
        ids.zero, ids.one, ids.coordPointer, place, List.nodup_cons, List.mem_cons,
        List.not_mem_nil, or_false, not_false_eq_true, List.nodup_nil, and_true]
      omega
    · simp only [Option.isSome_none, Bool.false_eq_true, if_false, List.cons_append,
        List.nil_append, List.map_cons, List.map_nil, ids.vec2, ids.int, ids.ivec2, ids.lod0,
        ids.zero, ids.one, ids.coordPointer, place, List.mem_cons, List.not_mem_nil, or_false]
      omega
  | some id =>
    rw [own] at first_eq
    have extra : extraIds (some id) = 0 := rfl
    refine distinct _ ?_ ?_
    · simp only [Option.isSome_some, if_true, List.append_nil, List.map_cons, List.map_nil,
        ids.vec2, ids.int, ids.ivec2, ids.lod0, ids.zero, ids.one, List.nodup_cons, List.mem_cons,
        List.not_mem_nil, or_false, not_false_eq_true, List.nodup_nil, and_true]
      omega
    · simp only [Option.isSome_some, if_true, List.append_nil, List.map_cons, List.map_nil,
        ids.vec2, ids.int, ids.ivec2, ids.lod0, ids.zero, ids.one, List.mem_cons, List.not_mem_nil,
        or_false]
      omega

/-- The ids of names: old ones, and those of copies. -/
theorem Run.names_new (run : Run g inputs words code keys plan middle pieces s)
    (room : Room words code inputs) :
    (code.flatMap fun i => (g.resultOf i).toList ++ copyIds plan i).Nodup ∧
      ∀ id ∈ code.flatMap fun i => (g.resultOf i).toList ++ copyIds plan i,
        id ∈ g.results code ∨ ((words.getD 3 0).toNat ≤ id.toNat ∧
          id.toNat < (words.getD 3 0).toNat + keys.length) := by
  have perm : (g.results code ++ code.flatMap (copyIds plan)).Perm
    (code.flatMap fun i => (g.resultOf i).toList ++ copyIds plan i) := Run.names_perm code
  have copies : ∀ id ∈ code.flatMap (copyIds plan), (words.getD 3 0).toNat ≤ id.toNat ∧
      id.toNat < (words.getD 3 0).toNat + keys.length := by
    intro id listed
    obtain ⟨i, _, listed⟩ := List.mem_flatMap.mp listed
    exact run.copyIds_mem room listed
  constructor
  · rw [← perm.nodup_iff, List.nodup_append]
    refine ⟨run.wf.numbered.unique, run.copies_nodup room, ?_⟩
    rintro id defined id' copy rfl
    have old := run.result_lt defined
    have new := copies id copy
    omega
  · intro id listed
    rcases List.mem_append.mp (perm.mem_iff.mpr listed) with old | copy
    · exact .inl old
    · exact .inr (copies id copy)

/-- No id is defined twice, and all are below the new bound. -/
theorem Run.numbered (run : Run g inputs words code keys plan middle pieces s)
    (room : Room words code inputs)
    (entries : ∀ e ∈ code, fragCoord code = none → FragmentEntry e → e.length < 65535) :
    g.Numbered s.next (pieces.flatMap Patch.all) := by
  have supplied := run.supplied room entries
  have last := supplied.le
  have inserted : (g.results (pieces.flatMap Patch.inserted)).Perm
      (g.results (plan.coordinate.sections (fragCoord code))) :=
    run.inserted.flatMap_right _
  obtain ⟨sections_nodup, sections⟩ := run.sections_new room
  obtain ⟨names_nodup, names⟩ := run.names_new room
  obtain ⟨first, _, first_eq, middle_eq, _⟩ := run.ids room
  refine .of_supplied supplied ?_ ?_ ?_
  · refine (inserted.append_right _).nodup_iff.mpr ?_
    rw [List.nodup_append]
    refine ⟨sections_nodup, names_nodup, ?_⟩
    rintro id new id' name rfl
    have place := sections id new
    rcases names id name with old | copy
    · have below := run.result_lt old
      omega
    · omega
  · intro id listed
    rcases List.mem_append.mp listed with new | name
    · exact (sections id (inserted.mem_iff.mp new)).2
    · rcases names id name with old | copy
      · have below := run.result_lt old
        omega
      · omega
  · intro j member id mention
    rw [UInt32.lt_iff_toNat_lt]
    rcases mem_pieces.mp member with new | written
    · have below := run.sections_lt room (run.inserted.mem_iff.mp new) mention
      omega
    · obtain ⟨piece, there, written⟩ := List.mem_flatMap.mp written
      obtain ⟨i, member, next, next', turn, above, after, within⟩ :=
        forall₂_mem_right (run.turns_toNat room) there
      rcases turn.mentions run room member above entries after written mention with known | new
      · omega
      · omega

/-- What is defined is old or new. -/
theorem Run.fresh (run : Run g inputs words code keys plan middle pieces s)
    (room : Room words code inputs)
    (entries : ∀ e ∈ code, fragCoord code = none → FragmentEntry e → e.length < 65535) :
    ∀ id ∈ g.results (pieces.flatMap Patch.all), id ∈ g.results code ∨ words.getD 3 0 ≤ id := by
  intro id defined
  rw [UInt32.le_iff_toNat_le]
  obtain ⟨first, _, first_eq, middle_eq, _⟩ := run.ids room
  obtain ⟨j, member, defines⟩ := Dialect.mem_results.mp defined
  rcases mem_pieces.mp member with new | written
  · have listed := Dialect.mem_results_of_mem (run.inserted.mem_iff.mp new) defines
    have place := (run.sections_new room).2 id listed
    exact .inr (by omega)
  · obtain ⟨piece, there, written⟩ := List.mem_flatMap.mp written
    rcases (run.supplied room entries).mem id (List.mem_flatMap.mpr
      ⟨piece, there, Dialect.mem_results_of_mem written defines⟩) with name | new
    · exact ((run.names_new room).2 id name).imp_right And.left
    · exact .inr (by omega)

end Numbered

end Sgfx.Vulkan.InputAttachments
