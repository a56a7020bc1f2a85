import Mathlib.LinearAlgebra.Matrix.NonsingularInverse
import Sgfx.Codegen.MatrixLanes

/-!
# Lowering of matrix arithmetic

What is emitted for determinants, inverses, transposes and products of matrices is the mathematics,
when it is read over a field.  A program that does not compile is at a limit of the compiler.

## Main Definitions

* `Ready` — the lanes of a value are there
* `Fresh` — a value whose lanes were allocated between two states
* `inverseProducts` — an inverse, and its products with the matrix on both sides

## Main Results

* `emits_determinant`, `emits_inverse`
* `emits_matrixVector`, `emits_vectorMatrix`, `emits_matrixMatrix`
* `matrix_lowering`
-/

namespace Sgfx.Codegen

universe u

open Matrix

/-- The value has as many lanes as its shape, and none that is still to be allocated. -/
structure Value.Ready (s : Compiler) (v : Value) : Prop where
  length : v.lanes.length = v.shape.len
  old : ∀ lane ∈ v.lanes, Old s.tempLanes lane

/-- The value has this shape, and lanes that were allocated between the states. -/
def Fresh (s t : Compiler) (shape : Shape) (v : Value) : Prop :=
  ∃ n, s.tempLanes ≤ n ∧ n + shape.len ≤ t.tempLanes ∧ v = ⟨shape, nextLanes n shape.len⟩

theorem Value.Ready.mono {s t : Compiler} {v : Value} (ready : v.Ready s) (grows : s.Grows t) :
    v.Ready t :=
  ⟨ready.length, fun lane member => (ready.old lane member).mono grows.tempLanes⟩

theorem old_nextLanes {n count bound : Nat} (h : n + count ≤ bound) :
    ∀ lane ∈ nextLanes n count, Old bound lane := by
  intro lane member
  obtain ⟨i, hi, rfl⟩ := List.mem_map.mp member
  have := List.mem_range.mp hi
  exact old_temp.mpr (by omega)

theorem Fresh.ready {s t : Compiler} {shape : Shape} {v : Value} (fresh : Fresh s t shape v) :
    v.Ready t := by
  obtain ⟨n, -, ht, rfl⟩ := fresh
  exact ⟨length_nextLanes .., old_nextLanes ht⟩

theorem Fresh.shape {s t : Compiler} {shape : Shape} {v : Value} (fresh : Fresh s t shape v) :
    v.shape = shape := by
  obtain ⟨n, -, -, rfl⟩ := fresh
  rfl

section Lowering

variable {K : Type u} [Field K] {s : Compiler}

/-! ## Determinants -/

/-- The place of a row in a column. -/
theorem square_index {rows columns i j : Nat} (hi : i < rows) (hj : j < columns) :
    j * rows + i < columns * rows := by
  have := Nat.mul_le_mul_right rows (Nat.succ_le_of_lt hj)
  rw [Nat.succ_mul] at this
  omega

/-- The places of all rows of all columns. -/
theorem mem_places {rows columns i j : Nat} (hi : i < rows) (hj : j < columns) :
    j * rows + i ∈ [] ++ (List.range columns).flatMap fun column =>
      (List.range rows).flatMap fun row => [column * rows + row] := by
  simp only [List.nil_append, List.mem_flatMap, List.mem_range, List.mem_singleton]
  exact ⟨j, hj, i, hi, rfl⟩

/-- The terms of a row, as a sum over the row. -/
theorem sum_map_range (f : Nat → K) (n : Nat) : ((List.range n).map f).sum = ∑ i : Fin n, f i := by
  rw [Fin.sum_univ_eq_sum_range]
  rfl

/-- The term of a column in the expansion along the first row. -/
def laplaceTerm (lanes : List Lane) (n : Nat) (m : Store K) (column : Nat) : K :=
  (-1) ^ column * (entry lanes m (column * (n + 1)) *
    (matrixOf n n (minorLanes lanes n 0 column) m).det)

theorem laplace (lanes : List Lane) (n : Nat) (m : Store K)
    (hlength : lanes.length = (n + 1) * (n + 1)) :
    ((List.range (n + 1)).map (laplaceTerm lanes n m)).sum =
      (matrixOf (n + 1) (n + 1) lanes m).det := by
  rw [sum_map_range, det_succ_row_zero]
  refine Finset.sum_congr rfl fun j _ => ?_
  have minor := matrixOf_minorLanes hlength m 0 j
  rw [Fin.val_zero, Fin.succAbove_zero] at minor
  rw [laplaceTerm, minor, mul_assoc]
  rfl

theorem laplaceTerm_congr {lanes : List Lane} {n column : Nat} {m m' : Store K}
    (hlength : lanes.length = (n + 1) * (n + 1)) (h : ∀ lane ∈ lanes, m' lane = m lane) :
    laplaceTerm lanes n m' column = laplaceTerm lanes n m column := by
  rw [laplaceTerm, entry_congr h, matrixOf_congr fun lane member =>
    h lane (mem_minorLanes hlength member)]
  rfl

/-- The elements before one of a range are those below it. -/
theorem range_split {n a : Nat} {done rest : List Nat} (h : List.range n = done ++ a :: rest) :
    done.length = a ∧ a < n := by
  have here : (List.range n)[done.length]? = some a := by
    rw [h, List.getElem?_append_right (Nat.le_refl _), Nat.sub_self]
    rfl
  rw [List.getElem?_eq_some_iff] at here
  obtain ⟨inside, hget⟩ := here
  rw [List.getElem_range] at hget
  rw [List.length_range] at inside
  exact ⟨hget, hget ▸ inside⟩

/-- One turn adds the term of its column to the terms of the columns before it. -/
theorem emits_expansionTurn {n base column : Nat} {lanes : List Lane} {done : List Nat}
    {minorDeterminant : List Lane → Compile Value}
    (hlength : lanes.length = (n + 1) * (n + 1)) (old : ∀ lane ∈ lanes, Old base lane)
    (hdone : done.length = column) (hcolumn : column < n + 1) (hbase : base + 1 ≤ s.tempLanes)
    (minors : (emitter K).Emits (minorDeterminant (minorLanes lanes n 0 column)) s
      (fun v t => v = ⟨.scalar .float, [.temp s.tempLanes]⟩ ∧ s.tempLanes + 1 ≤ t.tempLanes)
      fun _ m m' => m' (.temp s.tempLanes) =
        (matrixOf n n (minorLanes lanes n 0 column) m).det ∧ Same s.tempLanes m m') :
    (emitter K).Emits (expansionTurn lanes (n + 1) minorDeterminant (.temp base) column) s
      (fun _ _ => True) fun _ m' m'' => ∀ m,
        (done ≠ [] → m' (.temp base) = (done.map (laplaceTerm lanes n m)).sum) ∧ Same base m m' →
        (done ++ [column] ≠ [] →
          m'' (.temp base) = ((done ++ [column]).map (laplaceTerm lanes n m)).sum) ∧
            Same base m m'' := by
  have inside : column * (n + 1) < lanes.length := by
    rw [hlength]
    exact Nat.mul_lt_mul_of_pos_right hcolumn (Nat.succ_pos _)
  have hlane := List.getElem?_eq_getElem inside
  refine Emitter.Emits.lift (matrixMinor_eq hlength (Nat.zero_le _) (Nat.le_of_lt_succ hcolumn)) ?_
  refine Emitter.Emits.bind minors fun v t₁ grows₁ hv => ?_
  obtain ⟨rfl, ht₁⟩ := hv
  refine emits_scalar fun t₂ grows₂ ht₂ => Emitter.Emits.lift rfl
    (Emitter.Emits.lift (laneAt_of hlane) (Emitter.Emits.lift rfl ?_))
  refine Emitter.Emits.bind (emits_instruction
    (fun m => m lanes[column * (n + 1)] * m (.temp s.tempLanes)) fun m => rfl)
    fun _ t₃ grows₃ ht₃ => ?_
  -- what was computed for the term, and the total so far, from the stores of this turn
  have computed {m₀ m m₁ : Store K} (same : Same base m₀ m)
      (hdet : m₁ (.temp s.tempLanes) = (matrixOf n n (minorLanes lanes n 0 column) m).det)
      (same' : Same s.tempLanes m m₁) :
      (-1) ^ column * (m₁ lanes[column * (n + 1)] * m₁ (.temp s.tempLanes)) =
        laplaceTerm lanes n m₀ column := by
    have unchanged := same_of_old old same
    rw [hdet, same' _ ((old _ (List.getElem_mem inside)).mono (by omega)),
      ← laplaceTerm_congr hlength unchanged, laplaceTerm, entry_of hlane]
  have different : Lane.temp base ≠ .temp t₁.tempLanes := by
    rw [Ne, Lane.temp_inj]
    omega
  split
  · rename_i first
    obtain rfl : done = [] := List.length_eq_zero_iff.mp (hdone.trans first)
    refine (emits_instruction (fun m => m (.temp t₁.tempLanes)) fun m => rfl).imp
      fun _ _ _ _ => ⟨trivial, ?_⟩
    rintro m₂ m₃ rfl m₁ rfl m ⟨hdet, same'⟩ m₀ ⟨-, same⟩
    have positive : (-1 : K) ^ column = 1 := by rw [first, pow_zero]
    refine ⟨fun _ => ?_, ?_⟩
    · rw [Function.update_self, Function.update_self, List.nil_append, List.map_singleton,
        List.sum_singleton, ← computed same hdet same', positive, one_mul]
    · exact (same.trans (same'.mono (by omega))).trans
        ((Same.update (by omega)).trans (Same.update (Nat.le_refl _)))
  · rename_i later
    have hnonempty : done ≠ [] := fun h => later (by rw [← hdone, h]; rfl)
    refine (emits_instruction (fun m => m (.temp base) + (-1) ^ column * m (.temp t₁.tempLanes))
      fun m => ?_).imp fun _ _ _ _ => ⟨trivial, ?_⟩
    · split
      · rename_i even
        rw [(Nat.even_iff.mpr even).neg_one_pow, one_mul]
        rfl
      · rename_i odd
        rw [(Nat.odd_iff.mpr (by omega)).neg_one_pow, neg_one_mul, ← sub_eq_add_neg]
        rfl
    · rintro m₂ m₃ rfl m₁ rfl m ⟨hdet, same'⟩ m₀ ⟨htotal, same⟩
      refine ⟨fun _ => ?_, ?_⟩
      · rw [Function.update_self, Function.update_self, Function.update_of_ne different,
          computed same hdet same', same' _ (old_temp.mpr (by omega)), htotal hnonempty,
          List.map_append, List.sum_append, List.map_singleton, List.sum_singleton]
      · exact (same.trans (same'.mono (by omega))).trans
          ((Same.update (by omega)).trans (Same.update (Nat.le_refl _)))

/-- The emitted expansion is the determinant. -/
theorem emits_determinant {size : Nat} {lanes : List Lane}
    (hlength : lanes.length = (size + 1) * (size + 1))
    (old : ∀ lane ∈ lanes, Old s.tempLanes lane) :
    (emitter K).Emits (matrixDeterminant lanes (size + 1)) s
      (fun v t => v = ⟨.scalar .float, [.temp s.tempLanes]⟩ ∧ s.tempLanes + 1 ≤ t.tempLanes)
      fun _ m m' => m' (.temp s.tempLanes) = (matrixOf (size + 1) (size + 1) lanes m).det ∧
        Same s.tempLanes m m' := by
  induction size generalizing lanes s with
  | zero =>
      obtain ⟨lane, rfl⟩ := List.length_eq_one_iff.mp hlength
      refine emits_scalar fun t grows ht => Emitter.Emits.lift rfl (Emitter.Emits.lift rfl ?_)
      refine Emitter.Emits.bind (emits_instruction (fun m => m lane) fun m => rfl)
        fun _ t' grows' ht' => Emitter.Emits.pure ⟨rfl, by omega⟩ ?_
      rintro m' m rfl
      refine ⟨?_, Same.update (Nat.le_refl _)⟩
      rw [Function.update_self]
      exact (det_fin_one (matrixOf 1 1 [lane] m)).symm
  | succ size ih =>
      refine emits_scalar fun t grows ht => Emitter.Emits.lift rfl ?_
      refine Emitter.Emits.bind (Emitter.Emits.loop (fun done m m' =>
          (done ≠ [] → m' (.temp s.tempLanes) = (done.map (laplaceTerm lanes (size + 1) m)).sum) ∧
            Same s.tempLanes m m')
        (fun m => ⟨fun h => absurd rfl h, Same.refl m⟩)
        fun done column rest t₁ hsplit grows₁ => ?_)
        fun _ t' grows' _ => Emitter.Emits.pure ⟨rfl, ?_⟩ fun m' m hJ => ⟨?_, hJ.2⟩
      · obtain ⟨hdone, hcolumn⟩ := range_split hsplit
        have hbase : s.tempLanes + 1 ≤ t₁.tempLanes := ht ▸ grows₁.tempLanes
        exact emits_expansionTurn hlength old hdone hcolumn hbase
          (ih length_minorLanes fun lane member =>
            (old lane (mem_minorLanes hlength member)).mono (by omega))
      · have := grows'.tempLanes
        omega
      · rw [hJ.1 (by simp), laplace lanes (size + 1) m hlength]

/-! ## Inverses -/

/-- The transposed cofactor of a place, divided by the determinant. -/
def inverseEntry (lanes : List Lane) (n : Nat) (det : Lane) (m : Store K) (place : Nat) : K :=
  (-1) ^ (place / (n + 1) + place % (n + 1)) *
    (matrixOf n n (minorLanes lanes n (place / (n + 1)) (place % (n + 1))) m).det / m det

/-- The product of two scalars. -/
theorem emits_scalarProduct {a b : Lane} :
    (emitter K).Emits (binary .multiply ⟨.scalar .float, [a]⟩ ⟨.scalar .float, [b]⟩ (.scalar .float))
      s (fun v t => v = ⟨.scalar .float, [.temp s.tempLanes]⟩ ∧ s.tempLanes + 1 ≤ t.tempLanes)
      fun _ m m' => m' = Function.update m (.temp s.tempLanes) (m a * m b) := by
  refine Emitter.Emits.lift rfl (Emitter.Emits.lift rfl (Emitter.Emits.lift rfl ?_))
  refine emits_scalar fun t grows ht => ?_
  rw [if_neg (by simp)]
  have turn : (emitter K).Emits (instruction .mul (.temp s.tempLanes) [a, b]) t
      (fun _ t' => t'.tempLanes = t.tempLanes)
      fun _ m m' => m' = Function.update m (.temp s.tempLanes) (m a * m b) :=
    emits_instruction (fun m => m a * m b) fun m => rfl
  have once := Emitter.Emits.bind turn fun _ t' grows' ht' =>
    (Emitter.Emits.pure ht' fun m m₀ h => h : (emitter K).Emits (pure ()) t'
      (fun _ t' => t'.tempLanes = t.tempLanes) fun _ m' m => ∀ m₀, m' = Function.update m₀
        (.temp s.tempLanes) (m₀ a * m₀ b) → m = Function.update m₀ (.temp s.tempLanes) (m₀ a * m₀ b))
  refine Emitter.Emits.bind (Emitter.Emits.lift rfl (Emitter.Emits.lift rfl once))
    fun _ t' grows' ht' => Emitter.Emits.pure ⟨rfl, by omega⟩ fun m m₀ h => h

/-- The product with the float `-1.0`. -/
theorem emits_negation {k : Nat} :
    (emitter K).Emits (do
        let minusOne ← immediate (.f32 minusOne)
        binary .multiply ⟨.scalar .float, [.temp k]⟩ minusOne (.scalar .float)) s
      (fun v t => v = ⟨.scalar .float, [.temp s.tempLanes]⟩ ∧ s.tempLanes + 1 ≤ t.tempLanes)
      fun _ m m' => m' (.temp s.tempLanes) = - m (.temp k) ∧ Same s.tempLanes m m' := by
  refine Emitter.Emits.bind (emits_immediate (by decide)) fun v t grows hv => ?_
  obtain ⟨hshape, ht, i, hlanes, -⟩ := hv
  obtain ⟨shape, lanes⟩ := v
  subst hshape hlanes
  rw [← ht]
  refine emits_scalarProduct.imp fun v t' _ hv => ⟨hv, ?_⟩
  rintro m₁ m' rfl m ⟨rfl, hconstant⟩
  refine ⟨?_, Same.update (Nat.le_refl _)⟩
  rw [Function.update_self, hconstant _ List.mem_cons_self, f32Value_minusOne, Rat.cast_neg,
    Rat.cast_one, mul_neg, mul_one]

/-- One turn computes one place of the inverse. -/
theorem emits_inverseTurn {n base det column row : Nat} {lanes : List Lane}
    (hlength : lanes.length = (n + 2) * (n + 2)) (old : ∀ lane ∈ lanes, Old base lane)
    (hdet : det < base) (hcolumn : column < n + 2) (hrow : row < n + 2)
    (hbase : base + (n + 2) * (n + 2) ≤ s.tempLanes) :
    (emitter K).Emits (do
        let minor ← matrixMinor lanes (n + 2) column row
        let cofactor ← matrixDeterminant minor (n + 1)
        let signed ← (if (column + row) % 2 = 0 then pure cofactor
          else do
            let minusOne ← immediate (.f32 minusOne)
            binary .multiply cofactor minusOne (.scalar .float))
        let place ← laneAt (nextLanes base ((n + 2) * (n + 2))) (column * (n + 2) + row)
        instruction .div place [← laneAt signed.lanes 0, ← laneAt [Lane.temp det] 0]) s
      (fun _ _ => True) fun _ m m' =>
        m' (.temp (base + (column * (n + 2) + row))) =
          inverseEntry lanes (n + 1) (.temp det) m (column * (n + 2) + row) ∧
        ∀ lane, Old s.tempLanes lane → lane ≠ .temp (base + (column * (n + 2) + row)) →
          m' lane = m lane := by
  have hplace : column * (n + 2) + row < (n + 2) * (n + 2) := square_index hrow hcolumn
  have hdiv : (column * (n + 2) + row) / (n + 2) = column := by
    rw [Nat.mul_comm, Nat.mul_add_div (Nat.succ_pos _), Nat.div_eq_of_lt hrow, Nat.add_zero]
  have hmod : (column * (n + 2) + row) % (n + 2) = row := by
    rw [Nat.mul_comm, Nat.mul_add_mod, Nat.mod_eq_of_lt hrow]
  refine Emitter.Emits.lift (matrixMinor_eq hlength (Nat.le_of_lt_succ hcolumn)
    (Nat.le_of_lt_succ hrow)) ?_
  refine Emitter.Emits.bind (emits_determinant length_minorLanes fun lane member =>
    (old lane (mem_minorLanes hlength member)).mono (by omega)) fun v t grows hv => ?_
  obtain ⟨rfl, ht⟩ := hv
  have cofactor : (emitter K).Emits (if (column + row) % 2 = 0
      then pure ⟨.scalar .float, [.temp s.tempLanes]⟩
      else do
        let minusOne ← immediate (.f32 minusOne)
        binary .multiply ⟨.scalar .float, [.temp s.tempLanes]⟩ minusOne (.scalar .float)) t
      (fun v t' => ∃ k, v = ⟨.scalar .float, [.temp k]⟩ ∧ s.tempLanes ≤ k)
      fun v m m' => ∀ lane ∈ v.lanes,
        m' lane = (-1) ^ (column + row) * m (.temp s.tempLanes) ∧ Same s.tempLanes m m' := by
    split
    · rename_i even
      refine Emitter.Emits.pure ⟨s.tempLanes, rfl, Nat.le_refl _⟩ fun m lane member => ?_
      rw [List.mem_singleton.mp member, (Nat.even_iff.mpr even).neg_one_pow, one_mul]
      exact ⟨rfl, Same.refl m⟩
    · rename_i odd
      refine emits_negation.imp fun v t' _ hv => ?_
      obtain ⟨rfl, -⟩ := hv
      refine ⟨⟨t.tempLanes, rfl, Nat.le_of_succ_le ht⟩, fun m m' h lane member => ?_⟩
      rw [List.mem_singleton.mp member, (Nat.odd_iff.mpr (by omega)).neg_one_pow, neg_one_mul]
      exact ⟨h.1, h.2.mono (Nat.le_of_succ_le ht)⟩
  refine Emitter.Emits.bind cofactor fun v t' grows' hv => ?_
  obtain ⟨k, rfl, hk⟩ := hv
  refine Emitter.Emits.lift (laneAt_of (nextLanes_getElem? hplace)) (Emitter.Emits.lift rfl
    (Emitter.Emits.lift rfl ?_))
  refine (emits_instruction (fun m => m (.temp k) / m (.temp det)) fun m => rfl).imp
    fun _ _ _ _ => ⟨trivial, ?_⟩
  rintro m₂ m₃ rfl m₁ hsigned m ⟨hminor, same⟩
  obtain ⟨hvalue, same'⟩ := hsigned (.temp k) List.mem_cons_self
  refine ⟨?_, fun lane oldlane ne => ?_⟩
  · rw [Function.update_self, hvalue, hminor, same' _ (old_temp.mpr (by omega)),
      same _ (old_temp.mpr (by omega)), inverseEntry, hdiv, hmod]
  · rw [Function.update_of_ne ne, same' lane oldlane, same lane oldlane]

/-- The quotients are the inverse. -/
theorem inverseEntry_eq {n : Nat} {lanes : List Lane} (hlength : lanes.length = (n + 1) * (n + 1))
    {det : Lane} {m : Store K} (hdet : m det = (matrixOf (n + 1) (n + 1) lanes m).det)
    (i j : Fin (n + 1)) :
    inverseEntry lanes n det m (j * (n + 1) + i) =
      (matrixOf (n + 1) (n + 1) lanes m)⁻¹ i j := by
  have hdiv : (j.val * (n + 1) + i) / (n + 1) = j := by
    rw [Nat.mul_comm, Nat.mul_add_div (Nat.succ_pos _), Nat.div_eq_of_lt i.isLt, Nat.add_zero]
  have hmod : (j.val * (n + 1) + i) % (n + 1) = i := by
    rw [Nat.mul_comm, Nat.mul_add_mod, Nat.mod_eq_of_lt i.isLt]
  rw [inverseEntry, hdiv, hmod, matrixOf_minorLanes hlength, hdet, Matrix.inv_def,
    Matrix.smul_apply, adjugate_fin_succ_eq_det_submatrix, Ring.inverse_eq_inv', smul_eq_mul,
    div_eq_inv_mul]

/-- Only older lanes matter to the inverse. -/
theorem inverseEntry_congr {n base place : Nat} {det : Lane} {lanes : List Lane} {m m' : Store K}
    (hlength : lanes.length = (n + 1) * (n + 1)) (old : ∀ lane ∈ lanes, Old base lane)
    (hdet : Old base det) (same : Same base m m') :
    inverseEntry lanes n det m' place = inverseEntry lanes n det m place := by
  rw [inverseEntry, same det hdet, matrixOf_congr fun lane member =>
    same lane (old lane (mem_minorLanes hlength member))]
  rfl

/-- The emitted inverse. -/
theorem emits_inverse {n : Nat} {a : Value} (hshape : a.shape = .matrix (n + 2) (n + 2))
    (hsize : n + 2 ≤ 4) (ready : a.Ready s) :
    (emitter K).Emits (math .inverse a (.matrix (n + 2) (n + 2))) s
      (fun v t => Fresh s t (.matrix (n + 2) (n + 2)) v)
      fun v m m' => matrixOf (n + 2) (n + 2) v.lanes m' = (matrixOf (n + 2) (n + 2) a.lanes m)⁻¹ ∧
        Same s.tempLanes m m' := by
  obtain ⟨shape, lanes⟩ := a
  subst hshape
  obtain ⟨hlength, old⟩ := ready
  have small : (Shape.matrix (n + 2) (n + 2)).len ≤ 16 := by
    have := Nat.mul_le_mul hsize hsize
    exact this
  rw [math, inverseOrDeterminant]
  simp only
  rw [if_neg (by omega)]
  refine Emitter.Emits.bind (emits_determinant hlength old) fun v t grows hv => ?_
  obtain ⟨rfl, ht⟩ := hv
  refine Emitter.Emits.bind (emits_allocate small) fun result t₁ grows₁ hresult => ?_
  obtain ⟨rfl, ht₁⟩ := hresult
  have oldbase (lane : Lane) (member : lane ∈ lanes) : Old t.tempLanes lane :=
    (old lane member).mono (Nat.le_of_succ_le ht)
  have fills : Fills t₁ t.tempLanes ((n + 2) * (n + 2))
      (inverseEntry lanes (n + 1) (.temp s.tempLanes) (K := K)) _ _ :=
    Fills.loop fun column hcolumn => Fills.loop fun row hrow =>
      Fills.single (Nat.le_of_eq ht₁.symm)
        (fun m m' same => inverseEntry_congr hlength oldbase (old_temp.mpr ht) same)
        fun t₂ grows₂ => emits_inverseTurn hlength oldbase ht (List.mem_range.mp hcolumn)
          (List.mem_range.mp hrow) (Nat.le_trans (Nat.le_of_eq ht₁.symm) grows₂.tempLanes)
  refine Emitter.Emits.bind (fills t₁ ((emitter K).grows_refl t₁)) fun _ t₂ grows₂ _ =>
    Emitter.Emits.pure ⟨t.tempLanes, Nat.le_of_succ_le ht, ?_, rfl⟩ ?_
  · rw [← ht₁]
    exact grows₂.tempLanes
  · rintro m₂ m₁ hfilled m₀ rfl m ⟨hdet, same⟩
    obtain ⟨written, same'⟩ := hfilled m₁ [] ⟨fun p hp => absurd hp List.not_mem_nil, Same.refl m₁⟩
    have unchanged := same_of_old old same
    refine ⟨?_, same.trans (same'.mono (Nat.le_of_succ_le ht))⟩
    ext i j
    have hplace : j.val * (n + 2) + i.val < (n + 2) * (n + 2) := square_index i.isLt j.isLt
    rw [← matrixOf_congr unchanged, ← inverseEntry_eq hlength
      (hdet.trans (congrArg det (matrixOf_congr unchanged).symm)) i j,
      ← written _ (mem_places i.isLt j.isLt) hplace]
    exact entry_of (nextLanes_getElem? hplace)

/-! ## Products -/

/-- The dot product of lanes of two values. -/
def dotEntry (a b : List Lane) (count : Nat) (left right : Nat → Nat) (m : Store K) : K :=
  ∑ k : Fin count, entry a m (left k) * entry b m (right k)

theorem dotEntry_congr {a b : List Lane} {count base : Nat} {left right : Nat → Nat}
    {m m' : Store K} (olda : ∀ lane ∈ a, Old base lane) (oldb : ∀ lane ∈ b, Old base lane)
    (same : Same base m m') :
    dotEntry a b count left right m' = dotEntry a b count left right m :=
  Finset.sum_congr rfl fun _ _ => by
    rw [entry_congr (same_of_old olda same), entry_congr (same_of_old oldb same)]

/-- A dot product into a lane of the result. -/
theorem emits_dotLanes {shape : Shape} {a b : Value} {base place count : Nat}
    {left right : Nat → Nat} (hplace : place < shape.len) (positive : 0 < count)
    (olda : ∀ lane ∈ a.lanes, Old base lane) (oldb : ∀ lane ∈ b.lanes, Old base lane)
    (hleft : ∀ k < count, left k < a.lanes.length) (hright : ∀ k < count, right k < b.lanes.length)
    (hbase : base + shape.len ≤ s.tempLanes) :
    (emitter K).Emits (dotLanes ⟨shape, nextLanes base shape.len⟩ a b place count left right) s
      (fun _ _ => True) fun _ m m' =>
        m' (.temp (base + place)) = dotEntry a.lanes b.lanes count left right m ∧
        ∀ lane, Old s.tempLanes lane → lane ≠ .temp (base + place) → m' lane = m lane := by
  have lane {lanes : List Lane} {i : Nat} (hi : i < lanes.length) :
      lanes[i]? = some (lanes[i]?.getD (.temp 0)) := by
    rw [List.getElem?_eq_getElem hi]
    rfl
  refine Emitter.Emits.lift (mapM_ok (g := fun k =>
    (a.lanes[left k]?.getD (.temp 0), b.lanes[right k]?.getD (.temp 0))) fun k hk => ?_) ?_
  · rw [laneAt_of (lane (hleft k (List.mem_range.mp hk))),
      laneAt_of (lane (hright k (List.mem_range.mp hk)))]
    rfl
  refine Emitter.Emits.lift (laneAt_of (nextLanes_getElem? hplace)) ?_
  refine (emits_dot ?_ (by omega) fun p member => ?_).imp fun _ _ _ _ =>
    ⟨trivial, fun m m' h => ⟨?_, h.2⟩⟩
  · rw [Ne, List.map_eq_nil_iff, List.range_eq_nil]
    exact Nat.ne_of_gt positive
  · obtain ⟨k, hk, rfl⟩ := List.mem_map.mp member
    have hk := List.mem_range.mp hk
    exact ⟨(olda _ (List.mem_of_getElem? (lane (hleft k hk)))).mono (Nat.le_add_right ..),
      (oldb _ (List.mem_of_getElem? (lane (hright k hk)))).mono (Nat.le_add_right ..)⟩
  · rw [h.1, List.map_map, dotEntry, ← sum_map_range
      fun k => entry a.lanes m (left k) * entry b.lanes m (right k)]
    congr 1
    refine List.map_congr_left fun k hk => ?_
    have hk := List.mem_range.mp hk
    rw [entry_of (lane (hleft k hk)), entry_of (lane (hright k hk))]
    rfl

/-- A value whose lanes are filled with dot products. -/
theorem emits_filled {shape : Shape} {f : Value → Compile Unit} (value : Store K → Nat → K)
    (places : List Nat) (small : shape.len ≤ 16)
    (fills : ∀ t : Compiler, s.Grows t → t.tempLanes = s.tempLanes + shape.len →
      Fills t s.tempLanes shape.len value (f ⟨shape, nextLanes s.tempLanes shape.len⟩) places)
    (all : ∀ p < shape.len, p ∈ [] ++ places) :
    (emitter K).Emits (do
        let result ← allocate shape
        f result
        return result) s (fun v t => Fresh s t shape v)
      fun v m m' => (∀ p < shape.len, entry v.lanes m' p = value m p) ∧ Same s.tempLanes m m' := by
  refine Emitter.Emits.bind (emits_allocate small) fun v t grows hv => ?_
  obtain ⟨rfl, ht⟩ := hv
  refine Emitter.Emits.bind (fills t grows ht t ((emitter K).grows_refl t)) fun _ t' grows' _ =>
    Emitter.Emits.pure ⟨s.tempLanes, Nat.le_refl _, ht ▸ grows'.tempLanes, rfl⟩ ?_
  rintro m' m filled m₀ rfl
  obtain ⟨written, same⟩ := filled m [] ⟨fun p hp => absurd hp List.not_mem_nil, Same.refl m⟩
  refine ⟨fun p hp => ?_, same⟩
  rw [entry_of (nextLanes_getElem? hp)]
  exact written p (all p hp) hp

variable {a b : Value} {columns rows inner : Nat} {kind : ScalarKind}

/-- The place in a column and the column, from the place in the lanes. -/
theorem place_split {i j : Nat} (hi : i < rows) :
    (j * rows + i) / rows = j ∧ (j * rows + i) % rows = i := by
  rw [Nat.mul_comm, Nat.mul_add_div (Nat.zero_lt_of_lt hi), Nat.div_eq_of_lt hi, Nat.mul_add_mod,
    Nat.mod_eq_of_lt hi]
  exact ⟨rfl, rfl⟩

/-- A matrix times a vector. -/
theorem emits_matrixVector (ha : a.shape = .matrix columns rows)
    (hb : b.shape = .vector kind columns) (readya : a.Ready s) (readyb : b.Ready s)
    (positive : 0 < columns) (small : rows ≤ 16) :
    (emitter K).Emits (binary .multiply a b (.vector .float rows)) s
      (fun v t => Fresh s t (.vector .float rows) v)
      fun v m m' => vectorOf rows v.lanes m' =
        matrixOf rows columns a.lanes m *ᵥ vectorOf columns b.lanes m ∧ Same s.tempLanes m m' := by
  obtain ⟨shape, lanes⟩ := a
  obtain ⟨shape', lanes'⟩ := b
  subst ha hb
  simp only [binary, if_true]
  refine Emitter.Emits.imp (emits_filled (fun m row => dotEntry lanes lanes' columns
    (fun col => col * rows + row) (fun col => col) m) ((List.range rows).flatMap fun row => [row])
    small (fun t _ ht => Fills.loop fun row hrow => Fills.single (Nat.le_of_eq ht.symm)
      (fun m m' same => dotEntry_congr readya.old readyb.old same) fun t' grows' => ?_)
    fun p hp => ?_) fun v t' _ fresh => ⟨fresh, fun m m' h => ⟨?_, h.2⟩⟩
  · have hrow := List.mem_range.mp hrow
    exact emits_dotLanes hrow positive readya.old readyb.old
      (fun col hcol => readya.length ▸ square_index hrow hcol)
      (fun col hcol => readyb.length ▸ hcol) (Nat.le_trans (Nat.le_of_eq ht.symm) grows'.tempLanes)
  · simpa [Shape.len] using hp
  · ext row
    rw [vectorOf, h.1 row row.isLt]
    rfl

/-- A vector times a matrix. -/
theorem emits_vectorMatrix (ha : a.shape = .vector kind rows)
    (hb : b.shape = .matrix columns rows) (readya : a.Ready s) (readyb : b.Ready s)
    (positive : 0 < rows) (small : columns ≤ 16) :
    (emitter K).Emits (binary .multiply a b (.vector .float columns)) s
      (fun v t => Fresh s t (.vector .float columns) v)
      fun v m m' => vectorOf columns v.lanes m' =
        vectorOf rows a.lanes m ᵥ* matrixOf rows columns b.lanes m ∧ Same s.tempLanes m m' := by
  obtain ⟨shape, lanes⟩ := a
  obtain ⟨shape', lanes'⟩ := b
  subst ha hb
  simp only [binary, if_true]
  refine Emitter.Emits.imp (emits_filled (fun m col => dotEntry lanes lanes' rows
    (fun row => row) (fun row => col * rows + row) m) ((List.range columns).flatMap fun col => [col])
    small (fun t _ ht => Fills.loop fun col hcol => Fills.single (Nat.le_of_eq ht.symm)
      (fun m m' same => dotEntry_congr readya.old readyb.old same) fun t' grows' => ?_)
    fun p hp => ?_) fun v t' _ fresh => ⟨fresh, fun m m' h => ⟨?_, h.2⟩⟩
  · have hcol := List.mem_range.mp hcol
    exact emits_dotLanes hcol positive readya.old readyb.old
      (fun row hrow => readya.length ▸ hrow)
      (fun row hrow => readyb.length ▸ square_index hrow hcol)
      (Nat.le_trans (Nat.le_of_eq ht.symm) grows'.tempLanes)
  · simpa [Shape.len] using hp
  · ext col
    rw [vectorOf, h.1 col col.isLt]
    rfl

/-- The product of two matrices. -/
theorem emits_matrixMatrix (ha : a.shape = .matrix inner rows)
    (hb : b.shape = .matrix columns inner) (readya : a.Ready s) (readyb : b.Ready s)
    (positive : 0 < inner) (small : columns * rows ≤ 16) :
    (emitter K).Emits (binary .multiply a b (.matrix columns rows)) s
      (fun v t => Fresh s t (.matrix columns rows) v)
      fun v m m' => matrixOf rows columns v.lanes m' =
        matrixOf rows inner a.lanes m * matrixOf inner columns b.lanes m ∧
        Same s.tempLanes m m' := by
  obtain ⟨shape, lanes⟩ := a
  obtain ⟨shape', lanes'⟩ := b
  subst ha hb
  simp only [binary, if_true]
  refine Emitter.Emits.imp (emits_filled (fun m p => dotEntry lanes lanes' inner
    (fun k => k * rows + p % rows) (fun k => p / rows * inner + k) m)
    ((List.range columns).flatMap fun col => (List.range rows).flatMap fun row => [col * rows + row])
    small (fun t _ ht => Fills.loop fun col hcol => Fills.loop fun row hrow =>
      Fills.single (Nat.le_of_eq ht.symm)
        (fun m m' same => dotEntry_congr readya.old readyb.old same) fun t' grows' => ?_)
    fun p hp => ?_) fun v t' _ fresh => ⟨fresh, fun m m' h => ⟨?_, h.2⟩⟩
  · have hcol := List.mem_range.mp hcol
    have hrow := List.mem_range.mp hrow
    simp only [(place_split hrow).1, (place_split hrow).2]
    exact emits_dotLanes (square_index hrow hcol) positive readya.old readyb.old
      (fun k hk => readya.length ▸ square_index hrow hk)
      (fun k hk => readyb.length ▸ square_index hk hcol)
      (Nat.le_trans (Nat.le_of_eq ht.symm) grows'.tempLanes)
  · have hrows : 0 < rows := Nat.pos_of_mul_pos_left (Nat.zero_lt_of_lt hp)
    have here := mem_places (Nat.mod_lt p hrows) ((Nat.div_lt_iff_lt_mul hrows).mpr hp)
    rwa [Nat.div_add_mod'] at here
  · ext row col
    rw [Matrix.mul_apply, matrixOf, Matrix.of_apply, h.1 _ (square_index row.isLt col.isLt),
      (place_split row.isLt).1, (place_split row.isLt).2]
    rfl

/-! ## Transposes -/

/-- The lanes of the transpose. -/
def transposedLanes (lanes : List Lane) (columns rows : Nat) : List Lane :=
  (List.range rows).flatMap fun column => (List.range columns).map fun row =>
    lanes[row * rows + column]?.getD (.temp 0)

/-- A transpose is the same lanes in another order. -/
theorem emits_transpose (ha : a.shape = .matrix columns rows) (ready : a.Ready s) :
    (emitter K).Emits (math .transpose a (.matrix rows columns)) s
      (fun v t => t = s ∧ v.shape = .matrix rows columns ∧ v.Ready t)
      fun v m m' => matrixOf columns rows v.lanes m' = (matrixOf rows columns a.lanes m)ᵀ ∧
        m' = m := by
  obtain ⟨shape, lanes⟩ := a
  subst ha
  obtain ⟨hlength, old⟩ := ready
  have lane {i j : Nat} (hi : i < rows) (hj : j < columns) :
      lanes[j * rows + i]? = some (lanes[j * rows + i]?.getD (.temp 0)) := by
    have inside : j * rows + i < lanes.length := by
      rw [hlength]
      exact square_index hi hj
    rw [List.getElem?_eq_getElem inside]
    rfl
  have picked : (((List.range rows).flatMap fun column =>
      (List.range columns).map fun row => row * rows + column).mapM (laneAt lanes)) =
        .ok (transposedLanes lanes columns rows) := by
    rw [mapM_ok (g := fun i => lanes[i]?.getD (.temp 0)) fun i member => ?_]
    · simp only [transposedLanes, List.map_flatMap, List.map_map, Function.comp_def]
    · simp only [List.mem_flatMap, List.mem_map, List.mem_range] at member
      obtain ⟨column, hcolumn, row, hrow, rfl⟩ := member
      exact laneAt_of (lane hcolumn hrow)
  simp only [math, and_self, if_true]
  refine Emitter.Emits.lift picked (Emitter.Emits.pure ⟨rfl, rfl, ?_, ?_⟩ fun m => ⟨?_, rfl⟩)
  · exact flatMap_range_length fun _ _ => by rw [List.length_map, List.length_range]
  · intro picked member
    simp only [transposedLanes, List.mem_flatMap, List.mem_map, List.mem_range] at member
    obtain ⟨column, hcolumn, row, hrow, rfl⟩ := member
    exact old _ (List.mem_of_getElem? (lane hcolumn hrow))
  · ext i j
    rw [Matrix.transpose_apply, matrixOf, matrixOf, Matrix.of_apply, Matrix.of_apply,
      entry_of (lane j.isLt i.isLt)]
    refine entry_of ?_
    rw [transposedLanes, flatMap_range_getElem? (fun _ _ => by
      rw [List.length_map, List.length_range]) j.isLt i.isLt, List.getElem?_map,
      List.getElem?_range i.isLt]
    rfl

end Lowering

/-! ## All of them -/

/-- The inverse of a matrix, and its emitted products with the matrix on both sides. -/
def inverseProducts (a : Value) (n : Nat) : Compile (Value × Value) := do
  let inverse ← math .inverse a (.matrix n n)
  let left ← binary .multiply inverse a (.matrix n n)
  let right ← binary .multiply a inverse (.matrix n n)
  return (left, right)

/-- The products of the inverse with the matrix are the identity. -/
theorem emits_inverseProducts {K : Type u} [Field K] {s : Compiler} {n : Nat} {a : Value}
    (ha : a.shape = .matrix (n + 2) (n + 2)) (hsize : n + 2 ≤ 4) (ready : a.Ready s) :
    (emitter K).Emits (inverseProducts a (n + 2)) s (fun _ _ => True) fun products m m' =>
      (matrixOf (n + 2) (n + 2) a.lanes m).det ≠ 0 →
        matrixOf (n + 2) (n + 2) products.1.lanes m' = 1 ∧
        matrixOf (n + 2) (n + 2) products.2.lanes m' = 1 := by
  have small : (n + 2) * (n + 2) ≤ 16 := Nat.mul_le_mul hsize hsize
  refine Emitter.Emits.bind (emits_inverse ha hsize ready) fun inverse t grows fresh => ?_
  have readyt := ready.mono grows
  refine Emitter.Emits.bind (emits_matrixMatrix fresh.shape ha fresh.ready readyt
    (Nat.succ_pos _) small) fun left t₁ grows₁ fresh₁ => ?_
  refine Emitter.Emits.bind (emits_matrixMatrix ha fresh.shape (readyt.mono grows₁)
    (fresh.ready.mono grows₁) (Nat.succ_pos _) small) fun right t₂ grows₂ fresh₂ =>
      Emitter.Emits.pure trivial ?_
  rintro m₃ m₂ ⟨hright, same₂⟩ m₁ ⟨hleft, same₁⟩ m ⟨hinverse, same⟩ nonzero
  have unit : IsUnit (matrixOf (n + 2) (n + 2) a.lanes m).det := isUnit_iff_ne_zero.mpr nonzero
  -- the matrix and its inverse are still there, and so is the first product
  have kept : matrixOf (n + 2) (n + 2) a.lanes m₁ = matrixOf (n + 2) (n + 2) a.lanes m :=
    matrixOf_congr (same_of_old ready.old same)
  have kept₁ : matrixOf (n + 2) (n + 2) a.lanes m₂ = matrixOf (n + 2) (n + 2) a.lanes m₁ :=
    matrixOf_congr (same_of_old readyt.old same₁)
  have inverse₁ : matrixOf (n + 2) (n + 2) inverse.lanes m₂ =
      matrixOf (n + 2) (n + 2) inverse.lanes m₁ :=
    matrixOf_congr (same_of_old fresh.ready.old same₁)
  have left₂ : matrixOf (n + 2) (n + 2) left.lanes m₃ = matrixOf (n + 2) (n + 2) left.lanes m₂ :=
    matrixOf_congr (same_of_old fresh₁.ready.old same₂)
  constructor
  · rw [left₂, hleft, hinverse, kept, Matrix.nonsing_inv_mul _ unit]
  · rw [hright, kept₁, inverse₁, hinverse, kept, Matrix.mul_nonsing_inv _ unit]

/-- The programs do compile. -/
example : ∀ n ∈ [2, 3], (inverseProducts ⟨.matrix n n, nextLanes 0 (n * n)⟩ n
    ⟨[], [], n * n⟩).1.isOk = true := by
  decide +kernel

/-- A size of vectors, and of the columns and rows of matrices. -/
structure Admissible (n : Nat) : Prop where
  two_le : 2 ≤ n
  le_four : n ≤ 4

/-- Matrix arithmetic is lowered to what it means, over any field and from any state of the
compiler: the emitted determinant of a square matrix is its determinant; the emitted inverse of a
matrix whose determinant is not zero is one, on either side; products and transposes are those of
the matrices, of any sizes that there are.  Where a program does not compile, the compiler is at one
of its limits. -/
theorem matrix_lowering {K : Type u} [Field K] :
    (∀ s n (a : Value) shape, Admissible n → a.shape = .matrix n n → a.Ready s →
      (emitter K).Emits (math .determinant a shape) s (fun v t => Fresh s t (.scalar .float) v)
        fun v m m' => entry v.lanes m' 0 = (matrixOf n n a.lanes m).det) ∧
    (∀ s n (a : Value), Admissible n → a.shape = .matrix n n → a.Ready s →
      (emitter K).Emits (inverseProducts a n) s (fun _ _ => True) fun products m m' =>
        (matrixOf n n a.lanes m).det ≠ 0 →
          matrixOf n n products.1.lanes m' = 1 ∧ matrixOf n n products.2.lanes m' = 1) ∧
    (∀ s columns rows (a b : Value) kind, Admissible columns → Admissible rows →
      a.shape = .matrix columns rows → b.shape = .vector kind columns → a.Ready s → b.Ready s →
      (emitter K).Emits (binary .multiply a b (.vector .float rows)) s
        (fun v t => Fresh s t (.vector .float rows) v) fun v m m' =>
          vectorOf rows v.lanes m' =
            matrixOf rows columns a.lanes m *ᵥ vectorOf columns b.lanes m) ∧
    (∀ s columns rows (a b : Value) kind, Admissible columns → Admissible rows →
      a.shape = .vector kind rows → b.shape = .matrix columns rows → a.Ready s → b.Ready s →
      (emitter K).Emits (binary .multiply a b (.vector .float columns)) s
        (fun v t => Fresh s t (.vector .float columns) v) fun v m m' =>
          vectorOf columns v.lanes m' =
            vectorOf rows a.lanes m ᵥ* matrixOf rows columns b.lanes m) ∧
    (∀ s inner columns rows (a b : Value), Admissible inner → Admissible columns →
      Admissible rows → a.shape = .matrix inner rows → b.shape = .matrix columns inner →
      a.Ready s → b.Ready s →
      (emitter K).Emits (binary .multiply a b (.matrix columns rows)) s
        (fun v t => Fresh s t (.matrix columns rows) v) fun v m m' =>
          matrixOf rows columns v.lanes m' =
            matrixOf rows inner a.lanes m * matrixOf inner columns b.lanes m) ∧
    (∀ s columns rows (a : Value), Admissible columns → Admissible rows →
      a.shape = .matrix columns rows → a.Ready s →
      (emitter K).Emits (math .transpose a (.matrix rows columns)) s
        (fun v t => t = s ∧ v.shape = .matrix rows columns ∧ v.Ready t) fun v m m' =>
          matrixOf columns rows v.lanes m' = (matrixOf rows columns a.lanes m)ᵀ ∧ m' = m) := by
  refine ⟨?_, ?_, ?_, ?_, ?_, ?_⟩
  · intro s n a shape size ha ready
    obtain ⟨n, rfl⟩ := Nat.exists_eq_add_of_le' size.two_le
    rw [math, inverseOrDeterminant, ha]
    simp only
    rw [if_neg (by have := size.le_four; omega)]
    have hlength : a.lanes.length = (n + 1 + 1) * (n + 1 + 1) := by
      rw [ready.length, ha]
      rfl
    refine Emitter.Emits.bind (emits_determinant hlength ready.old) fun v t _ hv =>
      Emitter.Emits.pure ⟨s.tempLanes, Nat.le_refl _, hv.2, hv.1⟩ fun m m₀ h => ?_
    rw [hv.1]
    exact h.1
  · intro s n a size ha ready
    obtain ⟨n, rfl⟩ := Nat.exists_eq_add_of_le' size.two_le
    exact emits_inverseProducts ha size.le_four ready
  · intro s columns rows a b kind hcolumns hrows ha hb readya readyb
    exact (emits_matrixVector ha hb readya readyb (by have := hcolumns.two_le; omega)
      (by have := hrows.le_four; omega)).imp fun v t _ fresh => ⟨fresh, fun m m' h => h.1⟩
  · intro s columns rows a b kind hcolumns hrows ha hb readya readyb
    exact (emits_vectorMatrix ha hb readya readyb (by have := hrows.two_le; omega)
      (by have := hcolumns.le_four; omega)).imp fun v t _ fresh => ⟨fresh, fun m m' h => h.1⟩
  · intro s inner columns rows a b hinner hcolumns hrows ha hb readya readyb
    exact (emits_matrixMatrix ha hb readya readyb (by have := hinner.two_le; omega)
      (Nat.mul_le_mul hcolumns.le_four hrows.le_four)).imp
        fun v t _ fresh => ⟨fresh, fun m m' h => h.1⟩
  · intro s columns rows a _ _ ha ready
    exact emits_transpose ha ready

end Sgfx.Codegen
