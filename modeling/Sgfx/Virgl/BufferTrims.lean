import Sgfx.Buffers.DiffBounds
import Sgfx.Virgl.BufferPlan

/-!
# Trimmed writes

Both ways in which a plan finds what a write changes, the comparison with the shadow
and the comparison through the layers, come to the same: the common prefix of the old
and the new bytes, and their common suffix unless the buffer grows.  `Trims` is what
follows for the range between the two.

## Main Results

* `Trims.of_scan` — a range between a common prefix and a common suffix
* `changedBufferBytes_trims`, `scanPrefix_spec`, `scanSuffix_spec`
-/

namespace Sgfx.Virgl

open Bytes BufferOnlyPlan

/-- A write of `data` at `start` changes the buffer, and everything it changes is in
the range. -/
structure Trims (base : List UInt8) (start : Nat) (data : List UInt8) (range : ByteRange) :
    Prop where
  changed : Bytes.write base start data ≠ base
  nonempty : range.start < range.stop
  low : max start range.start ≤ range.stop
  high : range.stop ≤ start + data.length
  same : ∀ i, start ≤ i → i < start + data.length →
    ¬ (max start range.start ≤ i ∧ i < range.stop) → get base i = get data (i - start)
  grows : base.length < start + data.length →
    range.start ≤ base.length ∧ range.stop = start + data.length

theorem Trims.of_scan {base data : List UInt8} {start front back : Nat}
    (s : Scans base start data front back)
    (changes : ¬ (front = data.length ∧ start + data.length ≤ base.length)) :
    Trims base start data ⟨min (start + front) base.length, start + data.length - back⟩ := by
  obtain ⟨front_le, front_same, front_differ, back_le, back_same, back_grows⟩ := s
  have differ : start + data.length ≤ base.length → front < data.length ∧
      get base (start + front) ≠ get data front := by
    intro inside
    have short : front < data.length := by omega
    exact ⟨short, front_differ (by omega)⟩
  -- The suffix stops before the first byte that differs.
  have disjoint : start + data.length ≤ base.length → back < data.length - front := by
    intro inside
    obtain ⟨short, ne⟩ := differ inside
    by_contra long
    have := back_same (data.length - 1 - front) (by omega)
    rw [show data.length - 1 - (data.length - 1 - front) = front by omega] at this
    exact ne this
  refine ⟨?_, ?_, ?_, ?_, ?_, ?_⟩
  · intro unchanged
    obtain ⟨inside, equal⟩ := write_eq_self_iff.mp unchanged
    obtain ⟨short, ne⟩ := differ inside
    exact ne (equal front short)
  · show min (start + front) base.length < start + data.length - back
    by_cases inside : start + data.length ≤ base.length
    · have := disjoint inside
      omega
    · have := back_grows (by omega)
      omega
  · show max start (min (start + front) base.length) ≤ start + data.length - back
    omega
  · show start + data.length - back ≤ start + data.length
    omega
  · intro i lower upper outside
    have outside : ¬ (max start (min (start + front) base.length) ≤ i ∧
      i < start + data.length - back) := outside
    by_cases before : i < start + front
    · have := front_same (i - start) (by omega)
      rwa [Nat.add_sub_cancel' lower] at this
    · have := back_same (start + data.length - 1 - i) (by omega)
      rwa [show data.length - 1 - (start + data.length - 1 - i) = i - start by omega,
        Nat.add_sub_cancel' lower] at this
  · intro grows
    show min (start + front) base.length ≤ base.length ∧
      start + data.length - back = start + data.length
    have := back_grows grows
    omega

/-- Without a byte that differs, and without growth, a write changes nothing. -/
theorem write_eq_self_of_scan {base data : List UInt8} {start front back : Nat}
    (s : Scans base start data front back) (same : front = data.length)
    (inside : start + data.length ≤ base.length) : Bytes.write base start data = base :=
  write_eq_self_iff.mpr ⟨inside, fun i less => s.front_same i (same ▸ less)⟩

/-! ## Against the shadow -/

theorem changedBufferBytes_trims {previous : Option (List UInt8)} {start : Nat}
    {data : List UInt8} {range : ByteRange}
    (h : changedBufferBytes previous start data = some range) :
    (range.isEmpty = true → Bytes.write (previous.getD []) start data = previous.getD []) ∧
      (range.isEmpty = false → Trims (previous.getD []) start data range) := by
  obtain ⟨front, back, scans, -, hrange⟩ := changedBufferBytes_scans h
  by_cases noop : front = data.length ∧ start + data.length ≤ (previous.getD []).length
  · refine ⟨fun _ => write_eq_self_of_scan scans noop.1 noop.2, fun nonempty => ?_⟩
    rw [hrange, ByteRange.isEmpty, decide_eq_false_iff_not] at nonempty
    simp only at nonempty
    omega
  · have trims := Trims.of_scan scans noop
    rw [← hrange] at trims
    refine ⟨fun empty => ?_, fun _ => trims⟩
    rw [ByteRange.isEmpty, decide_eq_true_eq] at empty
    exact absurd trims.nonempty (Nat.not_lt_of_le empty)

/-! ## Through the layers -/

/-- Comparing a block, and taking it whole when it is equal, gives its common
prefix. -/
theorem commonPrefix_of_chunk {xs ys : List UInt8} {count : Nat} (length : xs.length = count) :
    (if equalBufferChunk xs ys then count else commonPrefix xs ys) = commonPrefix xs ys := by
  split
  · rename_i same
    rw [equalBufferChunk_iff] at same
    rw [← same, commonPrefix_self, length]
  · rfl

theorem commonSuffix_of_chunk {xs ys : List UInt8} {count : Nat} (length : xs.length = count) :
    (if equalBufferChunk xs ys then count else commonSuffix xs ys) = commonSuffix xs ys := by
  split
  · rename_i same
    rw [equalBufferChunk_iff] at same
    rw [← same, commonSuffix, commonPrefix_self, List.length_reverse, length]
  · rfl

section Scan

variable {base data : List UInt8} {start : Nat} {read : Nat → Nat → List UInt8}

theorem scanPrefix_spec (hread : ∀ offset count, read offset count = window base (start + offset) count)
    {overlap front : Nat} (inside : overlap ≤ data.length) (le : front ≤ overlap)
    (before : ∀ i < front, get base (start + i) = get data i) :
    scanPrefix read data overlap front ≤ overlap ∧
      (∀ i < scanPrefix read data overlap front, get base (start + i) = get data i) ∧
      (scanPrefix read data overlap front < overlap →
        get base (start + scanPrefix read data overlap front) ≠
          get data (scanPrefix read data overlap front)) := by
  induction h : overlap - front using Nat.strongRecOn generalizing front with
  | ind n ih =>
      rw [scanPrefix]
      by_cases less : front < overlap
      · rw [if_pos less]
        simp only
        generalize hcount : min 256 (overlap - front) = count
        have scratch : (read front count).length = count := by rw [hread, window_length]
        have new : ((data.drop front).take count).length = count := by
          rw [List.length_take, List.length_drop]
          omega
        rw [commonPrefix_of_chunk scratch]
        obtain ⟨found_le, same, differ⟩ := commonPrefix_get (scratch.trans new.symm)
        rw [new] at found_le differ
        generalize commonPrefix (read front count) ((data.drop front).take count) = found at *
        -- The block, read in the buffer and in the data.
        have block : ∀ i < count, get (read front count) i = get base (start + (front + i)) ∧
            get ((data.drop front).take count) i = get data (front + i) := by
          intro i bound
          rw [hread, get_window, if_pos bound, get_take, if_pos bound, get_drop, Nat.add_assoc]
          exact ⟨rfl, rfl⟩
        have extended : ∀ i < front + found, get base (start + i) = get data i := by
          intro i bound
          by_cases old : i < front
          · exact before i old
          · have := same (i - front) (by omega)
            rwa [(block (i - front) (by omega)).1, (block (i - front) (by omega)).2,
              show front + (i - front) = i by omega] at this
        split
        · rename_i stops
          refine ⟨by omega, extended, fun _ => ?_⟩
          have := differ (by omega)
          rwa [(block found (by omega)).1, (block found (by omega)).2] at this
        · rename_i whole
          have whole : found = count := Classical.not_not.mp whole
          exact ih (overlap - (front + found)) (by omega) (by omega) extended rfl
      · rw [if_neg less]
        exact ⟨le, before, fun h => absurd h less⟩

theorem scanSuffix_spec (hread : ∀ offset count, read offset count = window base (start + offset) count)
    {front back : Nat} (le : back ≤ data.length - front)
    (before : ∀ i < back, get base (start + (data.length - 1 - i)) = get data (data.length - 1 - i)) :
    scanSuffix read data front back ≤ data.length - front ∧
      ∀ i < scanSuffix read data front back,
        get base (start + (data.length - 1 - i)) = get data (data.length - 1 - i) := by
  induction h : data.length - front - back using Nat.strongRecOn generalizing back with
  | ind n ih =>
      rw [scanSuffix]
      by_cases less : back < data.length - front
      · rw [if_pos less]
        simp only
        generalize hcount : min 256 (data.length - front - back) = count
        generalize hoffset : data.length - back - count = offset
        have scratch : (read offset count).length = count := by rw [hread, window_length]
        have new : ((data.drop offset).take count).length = count := by
          rw [List.length_take, List.length_drop]
          omega
        rw [commonSuffix_of_chunk scratch]
        obtain ⟨found_le, same, -⟩ := commonSuffix_get (scratch.trans new.symm)
        rw [new] at found_le
        rw [scratch, new] at same
        generalize commonSuffix (read offset count) ((data.drop offset).take count) = found at *
        have extended : ∀ i < back + found,
            get base (start + (data.length - 1 - i)) = get data (data.length - 1 - i) := by
          intro i bound
          by_cases old : i < back
          · exact before i old
          · have equal := same (i - back) (by omega)
            rwa [hread, get_window, if_pos (by omega), get_take, if_pos (by omega), get_drop,
              Nat.add_assoc, show offset + (count - 1 - (i - back)) = data.length - 1 - i by omega]
              at equal
        split
        · exact ⟨by omega, extended⟩
        · rename_i whole
          have whole : found = count := Classical.not_not.mp whole
          exact ih (data.length - front - (back + found)) (by omega) (by omega) extended rfl
      · rw [if_neg less]
        exact ⟨le, before⟩

end Scan

end Sgfx.Virgl
