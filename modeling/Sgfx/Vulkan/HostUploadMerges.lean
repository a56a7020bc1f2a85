import Sgfx.Vulkan.HostUploads

/-!
# Merging upload ranges in place

`merge` sorts the ranges of a buffer and merges them within the array.  After each turn the first
`count` ranges are those that coalescing has made of the ranges so far, and the ranges that are
still to come have not been moved.

## Main Results

* `merge_eq` — merging in place is `coalesce`
-/

namespace Sgfx.Vulkan

variable {sorted ranges : List MemoryRange} {count index : Nat}

/-- The first ranges are merged; the others behind `index` are where they were. -/
structure Merging (sorted : List MemoryRange) (index : Nat) (state : List MemoryRange × Nat) :
    Prop where
  length : state.1.length = sorted.length
  count_le : state.2 ≤ index
  merged : state.1.take state.2 = coalesce (sorted.take index)
  rest : state.1.drop index = sorted.drop index

theorem swapAt_eq {a b : Nat} (ha : a < ranges.length) (hb : b < ranges.length) :
    swapAt ranges a b = .ok ((ranges.set a ranges[b]).set b ranges[a]) := by
  rw [swapAt, List.getElem?_eq_getElem ha, List.getElem?_eq_getElem hb]
  rfl

theorem coalesce_concat (l : List MemoryRange) (range : MemoryRange) :
    coalesce (l ++ [range]) = (coalesceStep (coalesce l).reverse range).reverse := by
  rw [coalesce, coalesce, List.foldl_append, List.reverse_reverse]
  rfl

/-- The range at `index` is the next one. -/
theorem Merging.take_succ (merging : Merging sorted index (ranges, count))
    (inside : index < ranges.length) :
    sorted.take (index + 1) = sorted.take index ++ [ranges[index]] := by
  have hsorted : index < sorted.length := merging.length ▸ inside
  have same := congrArg (·[0]?) merging.rest
  rw [List.take_succ_eq_append_getElem hsorted]
  congr 2
  simpa [List.getElem?_eq_getElem inside, List.getElem?_eq_getElem hsorted] using same.symm

/-- A range that starts a new one, behind those that are merged. -/
theorem Merging.swapped (merging : Merging sorted index (ranges, count))
    (inside : index < ranges.length)
    (apart : coalesce (sorted.take index ++ [ranges[index]]) =
      coalesce (sorted.take index) ++ [ranges[index]]) :
    ∃ swapped, swapAt ranges count index = .ok swapped ∧
      Merging sorted (index + 1) (swapped, count + 1) := by
  have next := merging.take_succ inside
  obtain ⟨length, count_le, merged, rest⟩ := merging
  simp only at length count_le merged rest
  have hcount : count < ranges.length := Nat.lt_of_le_of_lt count_le inside
  refine ⟨_, swapAt_eq hcount inside, ?_, Nat.succ_le_succ count_le, ?_, ?_⟩
  · rw [List.length_set, List.length_set, length]
  · rw [next, apart, ← merged]
    simp only
    rw [List.take_succ_eq_append_getElem (by simpa using hcount)]
    congr 1
    · rw [List.take_set_of_le count_le, List.take_set_of_le (Nat.le_refl _)]
    · rw [List.getElem_set, List.getElem_set_self]
      split
      · rename_i hsame
        simp only [hsame]
      · rfl
  · simp only
    rw [List.drop_set_of_lt (Nat.lt_succ_self _), List.drop_set_of_lt (Nat.lt_succ_of_le count_le)]
    simpa [List.drop_drop] using congrArg (List.drop 1) rest

/-- What is merged ends with the last of the first ranges. -/
theorem Merging.last (merging : Merging sorted index (ranges, count + 1))
    (inside : count < ranges.length) :
    coalesce (sorted.take index) = ranges.take count ++ [ranges[count]] := by
  rw [← merging.merged, List.take_succ_eq_append_getElem inside]

/-- One turn. -/
theorem Merging.turn {state : List MemoryRange × Nat} (merging : Merging sorted index state)
    (inside : index < sorted.length) :
    ∃ state', mergeTurn state index = .ok state' ∧ Merging sorted (index + 1) state' := by
  obtain ⟨ranges, count⟩ := state
  have hindex : index < ranges.length := merging.length ▸ inside
  simp only [mergeTurn, List.getElem?_eq_getElem hindex, orPanic_some, bind, Except.bind]
  cases count with
  | zero =>
      have none : coalesce (sorted.take index) = [] := merging.merged.symm
      obtain ⟨swapped, hswapped, next⟩ := merging.swapped hindex (by
        rw [coalesce_concat, none]
        rfl)
      rw [if_pos rfl, hswapped]
      exact ⟨_, rfl, next⟩
  | succ count =>
      have hcount : count < ranges.length := Nat.lt_of_lt_of_le merging.count_le (Nat.le_of_lt hindex)
      have hlast := merging.last hcount
      rw [if_neg (Nat.succ_ne_zero count), Nat.add_sub_cancel]
      simp only [List.getElem?_eq_getElem hcount, orPanic_some]
      split
      · rename_i meets
        refine ⟨_, rfl, ?_, Nat.le_succ_of_le merging.count_le, ?_, ?_⟩
        · rw [List.length_set]
          exact merging.length
        · rw [merging.take_succ hindex, coalesce_concat, hlast, List.reverse_concat, coalesceStep,
            if_pos meets, List.reverse_cons, List.reverse_reverse,
            List.take_succ_eq_append_getElem (by simpa using hcount), List.getElem_set_self,
            List.take_set_of_le (Nat.le_refl _)]
        · have before : count < index + 1 := Nat.lt_succ_of_lt merging.count_le
          simp only
          rw [List.drop_set_of_lt before]
          simpa [List.drop_drop] using congrArg (List.drop 1) merging.rest
      · rename_i gap
        obtain ⟨swapped, hswapped, next⟩ := merging.swapped hindex (by
          rw [coalesce_concat, hlast, List.reverse_concat, coalesceStep, if_neg gap]
          simp)
        rw [hswapped]
        exact ⟨_, rfl, next⟩

/-- Merging in place never panics, and coalesces the sorted ranges. -/
theorem merge_eq (sorting : StartSort) (ranges : List MemoryRange) :
    merge sorting ranges = .ok (coalesce (sorting.sort ranges)) := by
  have start : Merging (sorting.sort ranges) 0 (sorting.sort ranges, 0) := ⟨rfl, Nat.le_refl _, rfl, rfl⟩
  obtain ⟨⟨merged, count⟩, hrun, last⟩ := foldlM_range_ok
    (fun index state => Merging (sorting.sort ranges) index state) start
    fun index state inside merging => merging.turn inside
  simp only [merge, hrun, bind, Except.bind]
  have hmerged := last.merged
  rw [List.take_length] at hmerged
  exact congrArg Except.ok hmerged

end Sgfx.Vulkan
