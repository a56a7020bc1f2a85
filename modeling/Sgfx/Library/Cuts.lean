import Mathlib.Data.List.Destutter
import Mathlib.Order.Lattice
import Mathlib.Tactic.Common

/-!
# Cutting a line at points

Ranges of a line that overlap are cut at the points where they start and end.  Between two
neighbouring points lies a window, which a range either contains or does not meet.

## Main Definitions

* `cuts` — the points from left to right, each once
* `windows` — neighbouring points

## Main Results

* `pairwise_cuts`, `mem_cuts`
* `pairwise_windows`, `beside_of_mem_windows`, `exists_mem_windows` — the windows are apart, no
  point is inside one, and every place between two points is in one
-/

namespace Sgfx

variable {α : Type} [LinearOrder α]

/-- The points from left to right: `sort_unstable` and `dedup`. -/
def cuts (points : List α) : List α :=
  (points.mergeSort fun a b => decide (a ≤ b)).destutter (· ≠ ·)

/-- `points.windows(2)`. -/
def windows (points : List α) : List (α × α) := points.zip points.tail

theorem sorted_mergeSort (points : List α) :
    (points.mergeSort fun a b => decide (a ≤ b)).Pairwise (· ≤ ·) := by
  have trans : ∀ a b c : α, decide (a ≤ b) = true → decide (b ≤ c) = true →
      decide (a ≤ c) = true := by
    intro a b c hab hbc
    rw [decide_eq_true_eq] at *
    exact le_trans hab hbc
  have total : ∀ a b : α, (decide (a ≤ b) || decide (b ≤ a)) = true := by
    intro a b
    rw [Bool.or_eq_true, decide_eq_true_eq, decide_eq_true_eq]
    exact le_total a b
  refine (List.pairwise_mergeSort trans total points).imp ?_
  intro a b h
  exact of_decide_eq_true h

theorem cuts_eq_dedup (points : List α) :
    cuts points = (points.mergeSort fun a b => decide (a ≤ b)).dedup :=
  (sorted_mergeSort points).destutter_eq_dedup

@[simp] theorem mem_cuts {points : List α} {a : α} : a ∈ cuts points ↔ a ∈ points := by
  rw [cuts_eq_dedup, List.mem_dedup, List.mem_mergeSort]

/-- The points go from left to right, each once. -/
theorem pairwise_cuts (points : List α) : (cuts points).Pairwise (· < ·) := by
  rw [cuts_eq_dedup]
  have sorted := (sorted_mergeSort points).sublist (List.dedup_sublist _)
  refine (sorted.and (List.nodup_dedup _)).imp ?_
  rintro a b ⟨le, ne⟩
  exact lt_of_le_of_ne le ne

/-! ## Windows -/

section Windows

variable {points : List α} {window : α × α}

omit [LinearOrder α] in
theorem windows_cons_cons (a b : α) (rest : List α) :
    windows (a :: b :: rest) = (a, b) :: windows (b :: rest) := rfl

omit [LinearOrder α] in
theorem mem_of_mem_windows (h : window ∈ windows points) :
    window.1 ∈ points ∧ window.2 ∈ points :=
  ⟨(List.of_mem_zip h).1, List.mem_of_mem_tail (List.of_mem_zip h).2⟩

/-- A window is not empty. -/
theorem lt_of_mem_windows (sorted : points.Pairwise (· < ·)) (h : window ∈ windows points) :
    window.1 < window.2 := by
  induction points with
  | nil => cases h
  | cons a rest ih =>
    cases rest with
    | nil => cases h
    | cons b rest =>
      obtain ⟨first, later⟩ := List.pairwise_cons.mp sorted
      rw [windows_cons_cons] at h
      rcases List.mem_cons.mp h with rfl | h
      · exact first b List.mem_cons_self
      · exact ih later h

/-- No point is inside a window. -/
theorem beside_of_mem_windows (sorted : points.Pairwise (· < ·)) (h : window ∈ windows points)
    {c : α} (member : c ∈ points) : c ≤ window.1 ∨ window.2 ≤ c := by
  induction points with
  | nil => cases h
  | cons a rest ih =>
    cases rest with
    | nil => cases h
    | cons b rest =>
      obtain ⟨first, later⟩ := List.pairwise_cons.mp sorted
      rw [windows_cons_cons, List.mem_cons] at h
      rw [List.mem_cons] at member
      rcases h with rfl | h
      · -- the points after the first are the second one and those after it
        rcases member with rfl | member
        · exact .inl le_rfl
        · rcases List.mem_cons.mp member with rfl | member
          · exact .inr le_rfl
          · exact .inr (le_of_lt ((List.pairwise_cons.mp later).1 c member))
      · rcases member with rfl | member
        · exact .inl (le_of_lt (first _ (mem_of_mem_windows h).1))
        · exact ih later h member

/-- Windows go from left to right. -/
theorem pairwise_windows (sorted : points.Pairwise (· < ·)) :
    (windows points).Pairwise fun v w => v.2 ≤ w.1 := by
  induction points with
  | nil => exact .nil
  | cons a rest ih =>
    cases rest with
    | nil => exact .nil
    | cons b rest =>
      have later := (List.pairwise_cons.mp sorted).2
      rw [windows_cons_cons]
      refine .cons ?_ (ih later)
      intro w h
      rcases List.mem_cons.mp (mem_of_mem_windows h).1 with same | member
      · exact le_of_eq same.symm
      · exact le_of_lt ((List.pairwise_cons.mp later).1 _ member)

/-- Every place between two points is in a window. -/
theorem exists_mem_windows (sorted : points.Pairwise (· < ·)) {lo hi x : α} (lower : lo ∈ points)
    (upper : hi ∈ points) (low : lo ≤ x) (high : x < hi) :
    ∃ w ∈ windows points, w.1 ≤ x ∧ x < w.2 := by
  induction points generalizing lo with
  | nil => cases lower
  | cons a rest ih =>
    obtain ⟨first, later⟩ := List.pairwise_cons.mp sorted
    have start : a ≤ x := by
      rcases List.mem_cons.mp lower with rfl | lower
      · exact low
      · exact le_trans (le_of_lt (first _ lower)) low
    have upper : hi ∈ rest := by
      rcases List.mem_cons.mp upper with rfl | upper
      · exact absurd high (not_lt_of_ge start)
      · exact upper
    cases rest with
    | nil => cases upper
    | cons b rest =>
      rw [windows_cons_cons]
      by_cases before : x < b
      · exact ⟨(a, b), List.mem_cons_self, start, before⟩
      · -- the place is after the second point, and the search goes on from there
        obtain ⟨w, hw, inside⟩ := ih later List.mem_cons_self upper (le_of_not_gt before)
        exact ⟨w, List.mem_cons_of_mem _ hw, inside⟩

end Windows

end Sgfx
