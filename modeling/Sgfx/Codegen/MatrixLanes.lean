import Mathlib.Data.Fin.SuccPred
import Mathlib.LinearAlgebra.Matrix.Adjugate
import Sgfx.Codegen.ShaderSemantics
import Sgfx.Library.Slices

/-!
# Matrices in lanes

A row of lanes that are read column after column is a matrix.  Leaving out the lanes of a row and a
column leaves the submatrix, so `matrixMinor` picks the lanes of a minor.

## Main Definitions

* `entry`, `vectorOf`, `matrixOf` — what lanes hold
* `minorLanes` — the lanes that `matrixMinor` picks

## Main Results

* `matrixMinor_eq`, `matrixOf_minorLanes`
-/

namespace Sgfx.Codegen

universe u

/-- Checks that all succeed. -/
theorem mapM_ok {ε α β : Type} {l : List α} {f : α → Except ε β} {g : α → β}
    (h : ∀ a ∈ l, f a = .ok (g a)) : l.mapM f = .ok (l.map g) := by
  induction l with
  | nil => rfl
  | cons a l ih =>
      rw [List.mapM_cons, h a List.mem_cons_self, ih fun b hb => h b (List.mem_cons_of_mem _ hb)]
      rfl

/-! ## What lanes hold -/

section Entries

variable {K : Type u} [Field K] {lanes : List Lane} {m m' : Store K}

/-- What the lane at an index holds. -/
def entry (lanes : List Lane) (m : Store K) (i : Nat) : K := lanes[i]?.elim 0 m

/-- What the lanes hold, as a vector. -/
def vectorOf (n : Nat) (lanes : List Lane) (m : Store K) : Fin n → K := fun i => entry lanes m i

/-- What the lanes hold, column after column. -/
def matrixOf (rows columns : Nat) (lanes : List Lane) (m : Store K) :
    Matrix (Fin rows) (Fin columns) K :=
  .of fun i j => entry lanes m (j * rows + i)

theorem entry_of {i : Nat} {lane : Lane} (h : lanes[i]? = some lane) :
    entry lanes m i = m lane := by
  rw [entry, h]
  rfl

/-- Only the lanes matter. -/
theorem entry_congr (h : ∀ lane ∈ lanes, m' lane = m lane) (i : Nat) :
    entry lanes m' i = entry lanes m i := by
  unfold entry
  cases hi : lanes[i]? with
  | none => rfl
  | some lane => exact h lane (List.mem_of_getElem? hi)

theorem matrixOf_congr {rows columns : Nat} (h : ∀ lane ∈ lanes, m' lane = m lane) :
    matrixOf rows columns lanes m' = matrixOf rows columns lanes m := by
  ext i j
  exact entry_congr h _

omit [Field K] in
theorem same_of_old {n : Nat} (old : ∀ lane ∈ lanes, Old n lane) (same : Same n m m') :
    ∀ lane ∈ lanes, m' lane = m lane :=
  fun lane member => same lane (old lane member)

end Entries

/-! ## Minors -/

/-- The index in the whole row of the `i`-th one besides `excluded`. -/
def skip (excluded i : Nat) : Nat := if i < excluded then i else i + 1

theorem skip_le {excluded i n : Nat} (h : i < n) : skip excluded i ≤ n := by
  unfold skip
  split <;> omega

theorem val_succAbove {n : Nat} (p : Fin (n + 1)) (i : Fin n) :
    (p.succAbove i).val = skip p.val i.val := by
  unfold Fin.succAbove skip
  simp only [Fin.lt_def, Fin.val_castSucc]
  split <;> rfl

theorem filter_range {n excluded : Nat} (h : excluded ≤ n) :
    (List.range (n + 1)).filter (· ≠ excluded) = (List.range n).map (skip excluded) := by
  obtain ⟨d, rfl⟩ := Nat.exists_eq_add_of_le h
  have before : (List.range excluded).filter (· ≠ excluded) =
      (List.range excluded).map (skip excluded) := by
    rw [List.filter_eq_self.mpr, List.map_congr_left (g := id), List.map_id]
    · intro i hi
      exact if_pos (List.mem_range.mp hi)
    · intro i hi
      simpa using (Nat.ne_of_lt (List.mem_range.mp hi))
  have behind : ((List.range d).map fun i => excluded + (i + 1)).filter (· ≠ excluded) =
      ((List.range d).map (excluded + ·)).map (skip excluded) := by
    rw [List.filter_eq_self.mpr, List.map_map]
    · refine List.map_congr_left fun i _ => ?_
      exact (if_neg (Nat.not_lt.mpr (Nat.le_add_right ..))).symm
    · intro i hi
      obtain ⟨j, -, rfl⟩ := List.mem_map.mp hi
      simp
  have tail : List.range (d + 1) = 0 :: (List.range d).map Nat.succ := List.range_succ_eq_map
  rw [Nat.add_assoc, List.range_add, tail, List.filter_append, before, List.map_cons, List.map_map,
    List.filter_cons_of_neg (by simp), List.range_add, List.map_append, ← behind]
  rfl

/-- The lanes of a minor of a square of `n + 1` columns. -/
def minorLanes (lanes : List Lane) (n row column : Nat) : List Lane :=
  (List.range n).flatMap fun j => (List.range n).map fun i =>
    lanes[skip column j * (n + 1) + skip row i]?.getD (.temp 0)

section Minors

variable {K : Type u} [Field K] {lanes : List Lane} {n row column : Nat}

theorem minor_index {i j : Nat} (hi : i < n) (hj : j < n) :
    skip column j * (n + 1) + skip row i < (n + 1) * (n + 1) := by
  have hrow : skip row i ≤ n := skip_le hi
  have hcolumn : skip column j * (n + 1) ≤ n * (n + 1) := Nat.mul_le_mul_right _ (skip_le hj)
  rw [Nat.succ_mul]
  omega

theorem matrixMinor_eq (hlength : lanes.length = (n + 1) * (n + 1)) (hrow : row ≤ n)
    (hcolumn : column ≤ n) :
    matrixMinor lanes (n + 1) row column = .ok (minorLanes lanes n row column) := by
  rw [matrixMinor, filter_range hrow, filter_range hcolumn]
  rw [mapM_ok (g := fun i => lanes[i]?.getD (.temp 0))]
  · simp only [minorLanes, List.map_flatMap, List.flatMap_map, List.map_map, Function.comp_def]
  · intro index member
    simp only [List.mem_flatMap, List.mem_map, List.mem_range] at member
    obtain ⟨_, ⟨j, hj, rfl⟩, _, ⟨i, hi, rfl⟩, rfl⟩ := member
    have inside : skip column j * (n + 1) + skip row i < lanes.length := by
      rw [hlength]
      exact minor_index hi hj
    rw [List.getElem?_eq_getElem inside]
    exact laneAt_of (List.getElem?_eq_getElem inside)

@[simp] theorem length_minorLanes : (minorLanes lanes n row column).length = n * n :=
  flatMap_range_length fun _ _ => by rw [List.length_map, List.length_range]

theorem mem_minorLanes (hlength : lanes.length = (n + 1) * (n + 1)) {lane : Lane}
    (member : lane ∈ minorLanes lanes n row column) : lane ∈ lanes := by
  simp only [minorLanes, List.mem_flatMap, List.mem_map, List.mem_range] at member
  obtain ⟨j, hj, i, hi, rfl⟩ := member
  have inside : skip column j * (n + 1) + skip row i < lanes.length := by
    rw [hlength]
    exact minor_index hi hj
  rw [List.getElem?_eq_getElem inside]
  exact List.getElem_mem inside

/-- The lanes of a minor hold the submatrix. -/
theorem matrixOf_minorLanes (hlength : lanes.length = (n + 1) * (n + 1)) (m : Store K)
    (r c : Fin (n + 1)) :
    matrixOf n n (minorLanes lanes n r c) m =
      (matrixOf (n + 1) (n + 1) lanes m).submatrix r.succAbove c.succAbove := by
  ext i j
  have inside : skip c j * (n + 1) + skip r i < lanes.length := by
    rw [hlength]
    exact minor_index i.isLt j.isLt
  simp only [matrixOf, Matrix.of_apply, Matrix.submatrix_apply, val_succAbove]
  rw [entry_of (List.getElem?_eq_getElem inside)]
  refine entry_of ?_
  rw [minorLanes, flatMap_range_getElem? (fun _ _ => by rw [List.length_map, List.length_range])
    j.isLt i.isLt, List.getElem?_map, List.getElem?_range i.isLt, Option.map_some,
    List.getElem?_eq_getElem inside]
  rfl

end Minors

end Sgfx.Codegen
