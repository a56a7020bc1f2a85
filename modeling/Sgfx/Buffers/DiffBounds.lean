import Sgfx.Library.Slices
import Sgfx.Buffers.Diff

/-!
# Bounds of a change

The range that `changed_buffer_bytes` returns lies between the common prefix and the common
suffix of the old and the new bytes.  Updating it is as good as the whole write, and inside
the buffer it has no byte too many at either end.

## Main Definitions

* `Scans` — what the loops that look for a change find

## Main Results

* `changedBufferBytes_scans`
* `changedBufferBytes_tight`
-/

namespace Sgfx

open Bytes

/-- What the loops that look for a change find: `front` bytes that agree, and `back`
bytes from the end. -/
structure Scans (base : List UInt8) (start : Nat) (data : List UInt8) (front back : Nat) :
    Prop where
  front_le : front ≤ min (base.length - start) data.length
  front_same : ∀ i < front, get base (start + i) = get data i
  front_differ : front < min (base.length - start) data.length →
    get base (start + front) ≠ get data front
  back_le : back ≤ data.length - front
  back_same : ∀ i < back, get base (start + (data.length - 1 - i)) = get data (data.length - 1 - i)
  back_grows : base.length < start + data.length → back = 0

/-! ## Prefixes and suffixes of bytes -/

theorem get_eq_of_getElem? {xs ys : List UInt8} {i j : Nat} (h : xs[i]? = ys[j]?) :
    get xs i = get ys j := by
  rw [Bytes.get, Bytes.get, List.getD_eq_getElem?_getD, List.getD_eq_getElem?_getD, h]

theorem getElem?_eq_of_get {xs ys : List UInt8} {i j : Nat} (hi : i < xs.length)
    (hj : j < ys.length) (h : get xs i = get ys j) : xs[i]? = ys[j]? := by
  rw [getElem?_eq_getD hi, getElem?_eq_getD hj]
  exact congrArg some h

/-- A common prefix, read byte by byte. -/
theorem commonPrefix_get {xs ys : List UInt8} (length : xs.length = ys.length) :
    commonPrefix xs ys ≤ ys.length ∧ (∀ i < commonPrefix xs ys, get xs i = get ys i) ∧
      (commonPrefix xs ys < ys.length →
        get xs (commonPrefix xs ys) ≠ get ys (commonPrefix xs ys)) := by
  refine ⟨commonPrefix_le_right xs ys, fun i less =>
    get_eq_of_getElem? (getElem?_of_lt_commonPrefix less), fun less same => ?_⟩
  have inside : commonPrefix xs ys < xs.length := length ▸ less
  exact getElem?_commonPrefix_ne inside less (getElem?_eq_of_get inside less same)

/-- A common suffix, read byte by byte. -/
theorem commonSuffix_get {xs ys : List UInt8} (length : xs.length = ys.length) :
    commonSuffix xs ys ≤ ys.length ∧
      (∀ i < commonSuffix xs ys, get xs (xs.length - 1 - i) = get ys (ys.length - 1 - i)) ∧
      (commonSuffix xs ys < ys.length →
        get xs (xs.length - 1 - commonSuffix xs ys) ≠
          get ys (ys.length - 1 - commonSuffix xs ys)) := by
  have lengths : xs.reverse.length = ys.reverse.length := by
    rw [List.length_reverse, List.length_reverse, length]
  obtain ⟨le, same, differ⟩ := commonPrefix_get lengths
  rw [List.length_reverse] at le differ
  have reversed : ∀ {zs : List UInt8} {i : Nat}, i < zs.length →
      get zs.reverse i = get zs (zs.length - 1 - i) := by
    intro zs i inside
    exact get_eq_of_getElem? (List.getElem?_reverse inside)
  refine ⟨le, fun i less => ?_, fun less => ?_⟩
  · have inside : i < ys.length := Nat.lt_of_lt_of_le less le
    have equal := same i less
    rwa [reversed (length ▸ inside), reversed inside] at equal
  · have ne := differ less
    rwa [← commonSuffix, reversed (length ▸ less), reversed less] at ne

/-! ## The range between them -/

/-- The returned range is that of a scan, whose suffix ends at a byte that differs. -/
theorem changedBufferBytes_scans {previous : Option (List UInt8)} {start : Nat}
    {data : List UInt8} {range : ByteRange}
    (h : changedBufferBytes previous start data = some range) :
    ∃ front back, Scans (previous.getD []) start data front back ∧
      (start + data.length ≤ (previous.getD []).length → front < data.length →
        get (previous.getD []) (start + (data.length - 1 - back)) ≠
          get data (data.length - 1 - back)) ∧
      range = ⟨min (start + front) (previous.getD []).length, start + data.length - back⟩ := by
  rw [changedBufferBytes_eq, Option.map_eq_some_iff] at h
  obtain ⟨stop, hstop, h⟩ := h
  have hstop : stop = start + data.length := by
    rw [checkedAddUsize] at hstop
    split at hstop
    · exact (Option.some.inj hstop).symm
    · cases hstop
  subst hstop
  cases previous with
  | none =>
      refine ⟨0, 0, ⟨Nat.zero_le _, fun i h => absurd h (Nat.not_lt_zero _), ?_, Nat.zero_le _,
        fun i h => absurd h (Nat.not_lt_zero _), fun _ => rfl⟩, fun inside less => ?_, ?_⟩
      · intro less
        simp at less
      · have inside : start + data.length ≤ 0 := inside
        omega
      · rw [← h]
        simp
  | some previous =>
      have dropped : (previous.drop start).length = previous.length - start := List.length_drop
      simp only [dropped] at h
      generalize hoverlap : min (previous.length - start) data.length = overlap at h
      have length : (data.take overlap).length = overlap := by
        rw [List.length_take]
        omega
      have lengths : ((previous.drop start).take overlap).length = (data.take overlap).length := by
        rw [length, List.length_take, dropped]
        omega
      obtain ⟨front_le, front_same, front_differ⟩ := commonPrefix_get lengths
      rw [length] at front_le front_differ
      generalize commonPrefix ((previous.drop start).take overlap) (data.take overlap) = front at *
      have same_front : ∀ i < front, get previous (start + i) = get data i := by
        intro i less
        have := front_same i less
        rwa [get_take, get_take, if_pos (by omega), if_pos (by omega), get_drop] at this
      have differ_front : front < min (previous.length - start) data.length →
          get previous (start + front) ≠ get data front := by
        intro less
        have := front_differ (by omega)
        rwa [get_take, get_take, if_pos (by omega), if_pos (by omega), get_drop] at this
      by_cases shorter : data.length ≤ previous.length - start
      · rw [if_pos shorter] at h
        have tails : (((previous.drop start).take data.length).drop front).length =
            (data.drop front).length := by
          rw [List.length_drop, List.length_drop, List.length_take, dropped]
          omega
        -- A byte of the two tails, counted from their ends.
        have tail_get : ∀ i < data.length - front,
            get (((previous.drop start).take data.length).drop front)
                ((((previous.drop start).take data.length).drop front).length - 1 - i) =
              get previous (start + (data.length - 1 - i)) ∧
            get (data.drop front) ((data.drop front).length - 1 - i) =
              get data (data.length - 1 - i) := by
          intro i bound
          rw [tails, List.length_drop, get_drop, get_drop, get_take, get_drop,
            show front + (data.length - front - 1 - i) = data.length - 1 - i by omega,
            if_pos (by omega)]
          exact ⟨rfl, rfl⟩
        obtain ⟨back_le, back_same, back_differ⟩ := commonSuffix_get tails
        rw [List.length_drop] at back_le
        generalize commonSuffix (((previous.drop start).take data.length).drop front)
          (data.drop front) = back at *
        refine ⟨front, back, ⟨hoverlap ▸ front_le, same_front, differ_front, back_le, ?_, ?_⟩,
          fun inside less => ?_, h.symm⟩
        · intro i less
          have equal := back_same i less
          obtain ⟨left, right⟩ := tail_get i (by omega)
          rwa [left, right] at equal
        · -- Where the buffer grows nothing is compared: the data is empty and past the end.
          intro grows
          have grows : previous.length < start + data.length := grows
          omega
        · -- The byte at the front differs, so that the suffix stops after it.
          have inside : start + data.length ≤ previous.length := inside
          have ends : back ≠ data.length - front := by
            rintro rfl
            have equal := back_same (data.length - front - 1) (by omega)
            obtain ⟨left, right⟩ := tail_get (data.length - front - 1) (by omega)
            rw [left, right,
              show data.length - 1 - (data.length - front - 1) = front by omega] at equal
            exact differ_front (by omega) equal
          have ne := back_differ (by
            rw [List.length_drop]
            omega)
          obtain ⟨left, right⟩ := tail_get back (by omega)
          rwa [left, right] at ne
      · rw [if_neg shorter] at h
        refine ⟨front, 0, ⟨hoverlap ▸ front_le, same_front, differ_front, Nat.zero_le _,
          fun i less => absurd less (Nat.not_lt_zero _), fun _ => rfl⟩, fun inside _ => ?_, h.symm⟩
        have inside : start + data.length ≤ previous.length := inside
        omega

/-! ## Updating the range alone -/

/-- The old bytes, grown with zeros, with the new ones of a range copied over them. -/
def updateRange (previous : List UInt8) (start : Nat) (data : List UInt8) (range : ByteRange) :
    List UInt8 :=
  Bytes.splice (Bytes.resize previous (max previous.length (start + data.length))) range.start
    (slice (Bytes.write previous start data) range.start range.stop)

/-- A range that bounds what a write changes, and no more when the write is inside. -/
structure Tight (previous : List UInt8) (start : Nat) (data : List UInt8) (range : ByteRange) :
    Prop where
  ordered : range.start ≤ range.stop
  inside : range.stop ≤ max previous.length (start + data.length)
  right_outside : ∀ i, ¬ (range.start ≤ i ∧ i < range.stop) →
    get previous i = get (Bytes.write previous start data) i
  updated : updateRange previous start data range = Bytes.write previous start data
  empty_iff : start + data.length ≤ previous.length →
    (range.start = range.stop ↔ Bytes.write previous start data = previous)
  ends_differ : start + data.length ≤ previous.length → range.start < range.stop →
    get previous range.start ≠ get (Bytes.write previous start data) range.start ∧
      get previous (range.stop - 1) ≠ get (Bytes.write previous start data) (range.stop - 1)

/-- Updating a range outside which the old bytes are right is the whole write. -/
theorem updateRange_eq {previous data : List UInt8} {start : Nat} {range : ByteRange}
    (ordered : range.start ≤ range.stop)
    (inside : range.stop ≤ max previous.length (start + data.length))
    (right_outside : ∀ i, ¬ (range.start ≤ i ∧ i < range.stop) →
      get previous i = get (Bytes.write previous start data) i) :
    updateRange previous start data range = Bytes.write previous start data := by
  have grown := resize_length previous (max previous.length (start + data.length))
  have whole := write_length previous data start
  have part : (slice (Bytes.write previous start data) range.start range.stop).length =
      range.stop - range.start := by
    rw [slice_length, whole]
    omega
  have fits : range.start + (slice (Bytes.write previous start data) range.start
      range.stop).length ≤
      (Bytes.resize previous (max previous.length (start + data.length))).length := by
    rw [part, grown]
    omega
  apply Bytes.ext
  · rw [updateRange, splice_length fits, grown, whole]
  · intro i _
    rw [updateRange, get_splice fits, part, get_resize (Nat.le_max_left ..)]
    split
    · rename_i here
      rw [slice, get_take, if_pos (by omega), get_drop, Nat.add_sub_cancel' here.1]
    · exact right_outside i (by omega)

theorem Scans.tight {base data : List UInt8} {start front back : Nat}
    (s : Scans base start data front back)
    (back_differ : start + data.length ≤ base.length → front < data.length →
      get base (start + (data.length - 1 - back)) ≠ get data (data.length - 1 - back)) :
    Tight base start data ⟨min (start + front) base.length, start + data.length - back⟩ := by
  obtain ⟨front_le, front_same, front_differ, back_le, back_same, back_grows⟩ := s
  have ordered : min (start + front) base.length ≤ start + data.length - back := by omega
  have inside : start + data.length - back ≤ max base.length (start + data.length) := by omega
  have right_outside : ∀ i, ¬ (min (start + front) base.length ≤ i ∧
      i < start + data.length - back) → get base i = get (Bytes.write base start data) i := by
    intro i outside
    rw [get_write]
    split
    · rename_i here
      by_cases before : i < start + front
      · have := front_same (i - start) (by omega)
        rwa [Nat.add_sub_cancel' here.1] at this
      · have := back_same (start + data.length - 1 - i) (by omega)
        rwa [show data.length - 1 - (start + data.length - 1 - i) = i - start by omega,
          Nat.add_sub_cancel' here.1] at this
    · rfl
  refine ⟨ordered, inside, right_outside, updateRange_eq ordered inside right_outside, ?_, ?_⟩
  · intro fits
    rw [write_eq_self_iff]
    constructor
    · intro empty
      have empty : min (start + front) base.length = start + data.length - back := empty
      have all : front = data.length := by
        by_contra short
        -- The suffix cannot reach the byte at the front.
        have ne := front_differ (by omega)
        have equal := back_same (data.length - 1 - front) (by omega)
        rw [show data.length - 1 - (data.length - 1 - front) = front by omega] at equal
        exact ne equal
      exact ⟨fits, fun i less => front_same i (all ▸ less)⟩
    · rintro ⟨-, same⟩
      have all : front = data.length := by
        by_contra short
        exact front_differ (by omega) (same front (by omega))
      show min (start + front) base.length = start + data.length - back
      omega
  · intro fits nonempty
    have nonempty : min (start + front) base.length < start + data.length - back := nonempty
    have short : front < data.length := by omega
    have first : min (start + front) base.length = start + front := by omega
    have last : start + data.length - back - 1 = start + (data.length - 1 - back) := by omega
    constructor
    · show get base (min (start + front) base.length) ≠
        get _ (min (start + front) base.length)
      rw [first, get_write, if_pos (by omega), Nat.add_sub_cancel_left]
      exact front_differ (by omega)
    · show get base (start + data.length - back - 1) ≠ get _ (start + data.length - back - 1)
      rw [last, get_write, if_pos (by omega), Nat.add_sub_cancel_left]
      exact back_differ fits short

/-- **The difference is sound and tight.**  For every old content, offset and data that do
not overflow, the returned range is in order and inside the grown buffer, updating it alone
is the whole write, and when the write is inside the old content the range is empty exactly
if nothing changes and else starts and ends with a byte that does. -/
theorem changedBufferBytes_tight (previous : Option (List UInt8)) (start : Nat)
    (data : List UInt8) (fits : start + data.length < 2 ^ 64) :
    ∃ range, changedBufferBytes previous start data = some range ∧
      Tight (previous.getD []) start data range := by
  obtain ⟨range, hrange⟩ : ∃ range, changedBufferBytes previous start data = some range := by
    rw [changedBufferBytes_eq, checkedAddUsize, if_pos fits]
    exact ⟨_, rfl⟩
  obtain ⟨front, back, scans, differ, rfl⟩ := changedBufferBytes_scans hrange
  exact ⟨_, hrange, scans.tight differ⟩

/-- One byte of three differs. -/
theorem changedBufferBytes_tight_oneByte :
    ∃ range, changedBufferBytes (some [1, 2, 3, 4]) 1 [2, 9, 4] = some range ∧
      Tight [1, 2, 3, 4] 1 [2, 9, 4] range :=
  changedBufferBytes_tight (some [1, 2, 3, 4]) 1 [2, 9, 4] (by decide)

end Sgfx
