import Mathlib.Algebra.BigOperators.Fin
import Mathlib.Algebra.Field.Rat
import Mathlib.Data.Rat.Cast.Defs
import Mathlib.Data.Rat.Cast.CharZero
import Mathlib.Tactic.NormNum
import Sgfx.Codegen.ShaderCompiler
import Sgfx.Library.Emission

/-!
# What the emitted arithmetic computes

The instructions for sums, differences, products and quotients are read over a field.  A store gives
every lane an element of the field, and an immediate is the exact number that its bits denote.

The compiler allocates a lane once, so what it emits leaves every older lane alone.  `Filled` says
which lanes of a result are computed already, and `Fills` that a part of a program computes some
more of them.

## Main Definitions

* `Store`, `Instruction.run`, `f32Value`
* `emitter` — the compiler as an emitter of code for stores
* `Old`, `Same` — lanes from before, and stores that agree on them
* `Filled`, `Fills`

## Main Results

* `emits_instruction`, `emits_allocate`, `emits_immediate`, `emits_dot`
* `Fills.loop`, `Fills.fill`
-/

namespace Sgfx.Codegen

universe u

/-! ## Stores -/

/-- The contents of all lanes. -/
abbrev Store (K : Type u) : Type u := Lane → K

section Semantics

variable {K : Type u} [Field K]

/-- What an instruction computes of its sources; the others are not read. -/
def Opcode.apply : Opcode → List K → Option K
  | .mov, [a] => some a
  | .add, [a, b] => some (a + b)
  | .sub, [a, b] => some (a - b)
  | .mul, [a, b] => some (a * b)
  | .div, [a, b] => some (a / b)
  | _, _ => none

/-- An instruction writes its destination. -/
def Instruction.run (i : Instruction) (m : Store K) : Option (Store K) :=
  (i.opcode.apply (i.sources.map m)).map fun value => Function.update m i.destination value

/-- The number that the bits of a finite float denote. -/
def f32Value (bits : UInt32) : ℚ :=
  let fraction : ℕ := bits.toNat % 2 ^ 23
  let exponent : ℕ := bits.toNat / 2 ^ 23 % 256
  let magnitude : ℚ :=
    if exponent = 0 then fraction / 2 ^ 149
    else (2 ^ 23 + fraction) * 2 ^ exponent / 2 ^ 150
  if bits.toNat / 2 ^ 31 = 1 then -magnitude else magnitude

theorem f32Value_minusOne : f32Value minusOne = -1 := by
  have fraction : minusOne.toNat % 2 ^ 23 = 0 := by decide
  have exponent : minusOne.toNat / 2 ^ 23 % 256 = 127 := by decide
  have sign : minusOne.toNat / 2 ^ 31 = 1 := by decide
  simp only [f32Value, fraction, exponent, sign]
  norm_num

/-- The store has the declared floats. -/
def Compiler.Held (s : Compiler) (m : Store K) : Prop :=
  ∀ i bits c, s.immediates[i]? = some ⟨.flt32, bits⟩ → m ⟨.imm i, c⟩ = (f32Value bits : K)

/-- A compiler later on. -/
structure Compiler.Grows (s t : Compiler) : Prop where
  tempLanes : s.tempLanes ≤ t.tempLanes
  immediates : s.immediates <+: t.immediates

/-- There is no room for sixteen more lanes, or for one more instruction. -/
def AtLimit (e : CompileError) (s : Compiler) : Prop :=
  (e = moreTemporaries ∧ 4096 < s.tempLanes + 16) ∨
    (e = moreInstructions ∧ 16384 ≤ s.instructions.length)

variable (K) in
/-- The compiler as an emitter of code for stores. -/
def emitter : Emitter Compiler CompileError Instruction (Store K) where
  code := Compiler.instructions
  run := Instruction.run
  Grows := Compiler.Grows
  Held := Compiler.Held
  Limit := AtLimit
  grows_refl s := ⟨Nat.le_refl _, List.prefix_rfl⟩
  grows_trans first second :=
    ⟨Nat.le_trans first.tempLanes second.tempLanes, first.immediates.trans second.immediates⟩
  held_mono {s t m} grows held i bits c h := by
    obtain ⟨more, hmore⟩ := grows.immediates
    refine held i bits c ?_
    rw [← hmore, List.getElem?_append_left (List.getElem?_eq_some_iff.mp h).1, h]

end Semantics

/-! ## Lanes from before -/

@[simp] theorem Lane.temp_inj {a b : Nat} : Lane.temp a = .temp b ↔ a = b := by
  constructor
  · intro h
    simp only [Lane.temp, Lane.mk.injEq, Register.temp.injEq, Fin.ext_iff, Fin.ofNat] at h
    omega
  · rintro rfl
    rfl

/-- The lane is not one of those that are allocated after the first `n`. -/
structure Old (n : Nat) (lane : Lane) : Prop where
  below : ∀ k, lane = .temp k → k < n

theorem Old.mono {n n' : Nat} {lane : Lane} (old : Old n lane) (h : n ≤ n') : Old n' lane :=
  ⟨fun k hk => Nat.lt_of_lt_of_le (old.below k hk) h⟩

@[simp] theorem old_temp {n k : Nat} : Old n (.temp k) ↔ k < n :=
  ⟨fun old => old.below k rfl, fun h => ⟨fun _ same => Lane.temp_inj.mp same ▸ h⟩⟩

theorem old_imm (n i : Nat) (c : Fin 4) : Old n ⟨.imm i, c⟩ := ⟨fun k h => by cases h⟩

theorem Old.ne_temp {n k : Nat} {lane : Lane} (old : Old n lane) (h : n ≤ k) : lane ≠ .temp k :=
  fun same => absurd (old.below k same) (Nat.not_lt.mpr h)

/-- The lanes from before are as they were. -/
def Same {K : Type u} (n : Nat) (m m' : Store K) : Prop := ∀ lane, Old n lane → m' lane = m lane

section Same

variable {K : Type u} {n n' : Nat} {m m' m'' : Store K}

theorem Same.refl (m : Store K) : Same n m m := fun _ _ => rfl

theorem Same.mono (same : Same n' m m') (h : n ≤ n') : Same n m m' :=
  fun lane old => same lane (old.mono h)

theorem Same.trans (first : Same n m m') (second : Same n m' m'') : Same n m m'' :=
  fun lane old => (second lane old).trans (first lane old)

theorem Same.update {k : Nat} {v : K} (h : n ≤ k) : Same n m (Function.update m (.temp k) v) :=
  fun _ old => Function.update_of_ne (old.ne_temp h) v m

end Same

/-! ## The parts of the compiler -/

section Parts

variable {K : Type u} [Field K] {s : Compiler}

/-- Writing an allocated lane keeps the constants. -/
theorem keeps_update {k : Nat} (m : Store K) (v : K) :
    (emitter K).Keeps m (Function.update m (.temp k) v) := by
  intro s held i bits c h
  rw [Function.update_of_ne (fun same => by cases same)]
  exact held i bits c h

/-- An instruction that is read. -/
theorem emits_instruction {opcode : Opcode} {k : Nat} {sources : List Lane} (value : Store K → K)
    (reads : ∀ m, opcode.apply (sources.map m) = some (value m)) :
    (emitter K).Emits (instruction opcode (.temp k) sources) s
      (fun _ t => t.tempLanes = s.tempLanes)
      fun _ m m' => m' = Function.update m (.temp k) (value m) := by
  refine Emitter.Emits.read ?_
  split
  · rename_i full
    exact .inr ⟨rfl, full⟩
  · refine Emitter.Emits.emit ⟨Nat.le_refl _, List.prefix_rfl⟩ rfl rfl fun m => ?_
    refine ⟨Function.update m (.temp k) (value m), ?_, keeps_update m _, rfl⟩
    change Instruction.run _ m = _
    rw [Instruction.run, reads]
    rfl

/-- The lanes that a compiler allocates next. -/
def nextLanes (n count : Nat) : List Lane := (List.range count).map fun i => .temp (n + i)

@[simp] theorem length_nextLanes (n count : Nat) : (nextLanes n count).length = count := by
  rw [nextLanes, List.length_map, List.length_range]

theorem nextLanes_getElem? {n count i : Nat} (h : i < count) :
    (nextLanes n count)[i]? = some (.temp (n + i)) := by
  rw [nextLanes, List.getElem?_map, List.getElem?_range h]
  rfl

theorem laneAt_of {lanes : List Lane} {i : Nat} {lane : Lane} (h : lanes[i]? = some lane) :
    laneAt lanes i = .ok lane := by
  rw [laneAt, h]
  rfl

theorem emits_allocate {shape : Shape} (small : shape.len ≤ 16) :
    (emitter K).Emits (allocate shape) s
      (fun v t => v = ⟨shape, nextLanes s.tempLanes shape.len⟩ ∧
        t.tempLanes = s.tempLanes + shape.len)
      fun _ m m' => m' = m := by
  refine Emitter.Emits.read ?_
  split
  · rename_i full
    exact .inl ⟨rfl, by omega⟩
  · refine ⟨⟨rfl, rfl⟩, ⟨Nat.le_add_right .., List.prefix_rfl⟩, [], (List.append_nil _).symm, ?_⟩
    exact fun m _ => ⟨m, rfl, fun _ held => held, rfl⟩

/-- A lane for a scalar, and what goes on with it. -/
theorem emits_scalar {α : Type} {kind : ScalarKind} {f : Value → Compile α}
    {P : α → Compiler → Prop} {Q : α → Store K → Store K → Prop}
    (rest : ∀ t : Compiler, s.Grows t → t.tempLanes = s.tempLanes + 1 →
      (emitter K).Emits (f ⟨.scalar kind, [.temp s.tempLanes]⟩) t P Q) :
    (emitter K).Emits (allocate (.scalar kind) >>= f) s P Q := by
  refine Emitter.Emits.bind (emits_allocate (by simp [Shape.len])) fun v t grows hv => ?_
  obtain ⟨rfl, ht⟩ := hv
  refine (rest t grows (by rw [ht]; rfl)).imp fun _ _ _ hP => ⟨hP, fun m m' hQ m₀ hm => ?_⟩
  rw [← hm]
  exact hQ

/-- The lane of a float that is a constant. -/
theorem emits_immediate {bits : UInt32} (finite : f32IsFinite bits = true) :
    (emitter K).Emits (immediate (.f32 bits)) s
      (fun v t => v.shape = .scalar .float ∧ t.tempLanes = s.tempLanes ∧
        ∃ i, v.lanes = [⟨.imm i, 0⟩] ∧ t.immediates[i]? = some ⟨.flt32, bits⟩)
      fun v m m' => m' = m ∧ ∀ lane ∈ v.lanes, m lane = (f32Value bits : K) := by
  have declared : (Literal.f32 bits).declaration = .ok (.float, ⟨.flt32, bits⟩) := if_pos finite
  refine Emitter.Emits.lift declared (Emitter.Emits.read ?_)
  simp only
  generalize hindex : s.immediates.findIdx (· = ⟨.flt32, bits⟩) = index
  split
  · rename_i absent
    have new : (s.immediates ++ [(⟨.flt32, bits⟩ : Immediate)])[index]? = some ⟨.flt32, bits⟩ := by
      rw [absent, List.getElem?_append_right (Nat.le_refl _), Nat.sub_self]
      rfl
    refine ⟨⟨rfl, rfl, index, rfl, new⟩, ⟨Nat.le_refl _, List.prefix_append ..⟩, [],
      (List.append_nil _).symm, fun m held => ⟨m, rfl, fun _ held => held, rfl, ?_⟩⟩
    intro lane member
    rw [List.mem_singleton.mp member]
    exact held index bits 0 new
  · rename_i absent
    have below : index < s.immediates.length := by
      have inside : s.immediates.findIdx (· = (⟨.flt32, bits⟩ : Immediate)) ≤
        s.immediates.length := List.findIdx_le_length
      omega
    have there : s.immediates[index]? = some ⟨.flt32, bits⟩ := by
      subst hindex
      rw [List.getElem?_eq_getElem below]
      exact congrArg some (of_decide_eq_true (List.findIdx_getElem (w := below)))
    refine ⟨⟨rfl, rfl, index, rfl, there⟩, ⟨Nat.le_refl _, List.prefix_rfl⟩, [],
      (List.append_nil _).symm, fun m held => ⟨m, rfl, fun _ held => held, rfl, ?_⟩⟩
    intro lane member
    rw [List.mem_singleton.mp member]
    exact held index bits 0 there

/-- The place of an element in its numbered row. -/
theorem zipIdx_split {α : Type} {l : List α} {done rest : List (α × Nat)} {a : α × Nat}
    (h : l.zipIdx = done ++ a :: rest) : a.2 = done.length ∧ a.1 ∈ l := by
  have here : l.zipIdx[done.length]? = some a := by
    rw [h, List.getElem?_append_right (Nat.le_refl _), Nat.sub_self]
    rfl
  rw [List.getElem?_zipIdx, Option.map_eq_some_iff] at here
  obtain ⟨b, hb, rfl⟩ := here
  exact ⟨Nat.zero_add _, List.mem_of_getElem? hb⟩

/-- The dot product of lanes from before. -/
theorem emits_dot {k : Nat} {products : List (Lane × Lane)} (nonempty : products ≠ [])
    (hk : k < s.tempLanes) (old : ∀ p ∈ products, Old k p.1 ∧ Old k p.2) :
    (emitter K).Emits (dot (.temp k) products) s (fun _ _ => True) fun _ m m' =>
      m' (.temp k) = (products.map fun p => m p.1 * m p.2).sum ∧
      ∀ lane, Old s.tempLanes lane → lane ≠ .temp k → m' lane = m lane := by
  unfold dot
  refine (Emitter.Emits.loop (E := emitter K) (fun done m m' =>
      (done ≠ [] → m' (.temp k) = (done.map fun p => m p.1.1 * m p.1.2).sum) ∧
      ∀ lane, Old s.tempLanes lane → lane ≠ .temp k → m' lane = m lane)
    (fun m => ⟨fun h => absurd rfl h, fun _ _ _ => rfl⟩) ?_).imp fun _ _ _ _ =>
      ⟨trivial, fun m m' hJ => ⟨?_, hJ.2⟩⟩
  · rintro done ⟨⟨a, b⟩, index⟩ rest t hsplit grows
    obtain ⟨hindex, member⟩ := zipIdx_split hsplit
    simp only at hindex member ⊢
    obtain ⟨olda, oldb⟩ := old _ member
    -- the operands are still what they were before the loop
    have operand {m m' : Store K} {lane : Lane} (oldlane : Old k lane)
        (frame : ∀ lane, Old s.tempLanes lane → lane ≠ .temp k → m' lane = m lane) :
        m' lane = m lane :=
      frame lane (oldlane.mono (Nat.le_of_lt hk)) (oldlane.ne_temp (Nat.le_refl _))
    split
    · rename_i zero
      have hdone : done = [] := List.length_eq_zero_iff.mp (by omega)
      subst hdone
      refine (emits_instruction (fun m => m a * m b) fun m => rfl).imp fun _ _ _ _ =>
        ⟨trivial, fun m' m'' hm'' m hJ => ⟨fun _ => ?_, fun lane oldlane ne => ?_⟩⟩
      · rw [hm'', Function.update_self, operand olda hJ.2, operand oldb hJ.2]
        simp
      · rw [hm'', Function.update_of_ne ne]
        exact hJ.2 lane oldlane ne
    · rename_i later
      have hdone : done ≠ [] := fun h => later (by rw [hindex, h]; rfl)
      refine emits_scalar fun t₁ grows₁ ht₁ => Emitter.Emits.lift rfl ?_
      have hs : s.tempLanes ≤ t.tempLanes := grows.tempLanes
      refine Emitter.Emits.bind (emits_instruction (fun m => m a * m b) fun m => rfl)
        fun _ t₂ _ _ => (emits_instruction (fun m => m (.temp k) + m (.temp t.tempLanes))
          fun m => rfl).imp fun _ _ _ _ => ⟨trivial, ?_⟩
      rintro m₁ m₂ rfl m' rfl m hJ
      have kept : Lane.temp k ≠ .temp t.tempLanes := by
        rw [Ne, Lane.temp_inj]
        omega
      refine ⟨fun _ => ?_, fun lane oldlane ne => ?_⟩
      · rw [Function.update_self, Function.update_self, Function.update_of_ne kept, hJ.1 hdone,
          operand olda hJ.2, operand oldb hJ.2]
        simp
      · rw [Function.update_of_ne ne, Function.update_of_ne (oldlane.ne_temp hs)]
        exact hJ.2 lane oldlane ne
  · rw [hJ.1 (by simpa using nonempty)]
    conv_rhs => rw [← List.zipIdx_map_fst 0 products, List.map_map]
    rfl

end Parts

/-! ## Filling the lanes of a result -/

section Fill

variable {K : Type u} [Field K]

/-- The lanes from `n` on have the values of these places; older lanes are as they were. -/
structure Filled (n count : Nat) (value : Store K → Nat → K) (places : List Nat)
    (m m' : Store K) : Prop where
  written : ∀ p ∈ places, p < count → m' (.temp (n + p)) = value m p
  same : Same n m m'

/-- From every later state, the program fills more places and keeps the others. -/
def Fills (s : Compiler) (n count : Nat) (value : Store K → Nat → K) (f : Compile Unit)
    (places : List Nat) : Prop :=
  ∀ t, s.Grows t → (emitter K).Emits f t (fun _ _ => True) fun _ m' m'' =>
    ∀ m done, Filled n count value done m m' → Filled n count value (done ++ places) m m''

variable {s : Compiler} {n count : Nat} {value : Store K → Nat → K}

theorem Fills.loop {α : Type} {l : List α} {f : α → Compile Unit} {places : α → List Nat}
    (each : ∀ a ∈ l, Fills s n count value (f a) (places a)) :
    Fills s n count value (Fallible.loop l f) (l.flatMap places) := by
  intro t grows
  refine (Emitter.Emits.loop (fun turns m m' => ∀ m₀ done, Filled n count value done m₀ m →
    Filled n count value (done ++ turns.flatMap places) m₀ m')
    (fun m m₀ done h => by simpa using h) ?_).imp fun _ _ _ _ =>
      ⟨trivial, fun m' m'' h m done filled => h m done filled⟩
  intro turns a rest t' hsplit grows'
  have member : a ∈ l := by simp [hsplit]
  refine (each a member t' ((emitter K).grows_trans grows grows')).imp fun _ _ _ _ =>
    ⟨trivial, fun m' m'' h m hJ m₀ done filled => ?_⟩
  have next := h m₀ _ (hJ m₀ done filled)
  rw [List.append_assoc] at next
  rwa [List.flatMap_append, List.flatMap_singleton]

/-- A turn that computes the value of one place from older lanes. -/
theorem Fills.single {f : Compile Unit} {p : Nat} (hs : n + count ≤ s.tempLanes)
    (reads : ∀ m m', Same n m m' → value m' p = value m p)
    (turn : ∀ t : Compiler, s.Grows t → (emitter K).Emits f t (fun _ _ => True) fun _ m m' =>
      m' (.temp (n + p)) = value m p ∧
      ∀ lane, Old t.tempLanes lane → lane ≠ .temp (n + p) → m' lane = m lane) :
    Fills s n count value f [p] := by
  intro t grows
  refine (turn t grows).imp fun _ _ _ _ => ⟨trivial, ?_⟩
  rintro m' m'' ⟨here, frame⟩ m done ⟨written, same⟩
  have ht : n + count ≤ t.tempLanes := Nat.le_trans hs grows.tempLanes
  constructor
  · intro q member hq
    obtain rfl | other := eq_or_ne q p
    · rw [here, reads m m' same]
    · have hdone : q ∈ done := by
        obtain hdone | last := List.mem_append.mp member
        · exact hdone
        · exact absurd (List.mem_singleton.mp last) other
      rw [frame _ (old_temp.mpr (by omega)) (by simpa using other)]
      exact written q hdone hq
  · intro lane old
    rw [frame lane (old.mono (by omega)) (old.ne_temp (Nat.le_add_right ..))]
    exact same lane old

end Fill

end Sgfx.Codegen
