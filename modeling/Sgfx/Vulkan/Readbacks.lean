import Mathlib.Data.List.Induction
import Sgfx.Buffers.Ranges
import Sgfx.Library.Fallible
import Sgfx.Vulkan.HostMemory

/-!
# Tracked GPU writes

`Readbacks` keeps, for each buffer, the ranges that the device writes, so that their bytes are read
back into the host mirrors and a read of a mirror is not taken for current after such a write.

## Main Definitions

* `Readbacks`, `Readbacks.insert`, `Readbacks.mayWrite`
* `Insertion`, `insertAll` — any calls of `insert` in a row

## Main Results

* `insertRange_eq` — inserting by binary search is `insertSpan`
* `insertAll_tracks` — the ranges after any calls
* `mayWrite_false`
-/

namespace Sgfx.Vulkan

open Ranges

/-- `Readbacks`. -/
structure Readbacks where
  ranges : Std.TreeMap BufferHandle (List MemoryRange)

namespace Readbacks

/-- `Readbacks::default`. -/
def empty : Readbacks := ⟨∅⟩

/-- The ranges of a buffer. -/
def of (readbacks : Readbacks) (buffer : BufferHandle) : List MemoryRange :=
  readbacks.ranges.getD buffer []

/-- The part of `insert` that works on the ranges of the buffer. -/
def insertRange (ranges : List MemoryRange) (offset stop : Nat) : List MemoryRange :=
  let first := partitionPoint (fun range => decide (range.stop < offset)) ranges
  let last := first +
    partitionPoint (fun range => decide (range.start ≤ stop)) (ranges.drop first)
  let start := ranges[first]?.elim offset fun range => min offset range.start
  let stop :=
    if first < last then ranges[last - 1]?.elim stop fun range => max stop range.stop else stop
  ranges.take first ++ ⟨start, stop⟩ :: ranges.drop last

/-- `Readbacks::insert`. -/
def insert (buffer : BufferHandle) (offset size : UInt64) : Fallible Readbacks Stop Unit := do
  let stop ← (okOr (checkedAddUsize offset.toNat size.toNat) invalid : Except Stop Nat)
  if size = 0 then pure ()
  else
    Fallible.update fun readbacks =>
      ⟨readbacks.ranges.alter buffer fun ranges =>
        some (insertRange (ranges.getD []) offset.toNat stop)⟩

/-- `Readbacks::may_write`. -/
def mayWrite (readbacks : Readbacks) (resources : Resources) (buffer : BufferHandle)
    (range : MemoryRange) : Bool :=
  match allocationRange resources buffer range with
  | none => true
  | some (memory, target) =>
      readbacks.ranges.toList.any fun (writer, ranges) =>
        ranges.any fun range =>
          match allocationRange resources writer range with
          | none => true
          | some (writtenMemory, written) =>
              memory = writtenMemory && target.start < written.stop && written.start < target.stop

/-! ## Inserting by binary search -/

section Insert

variable {ranges : List MemoryRange} {offset stop : Nat}

/-- The last of the first part of a row, by its index. -/
theorem elim_getLast?_take {α β : Type} {row : List α} {first count : Nat} (bound : β)
    (f : α → β) (inside : count ≤ (row.drop first).length) :
    (if first < first + count then row[first + count - 1]?.elim bound f else bound) =
      ((row.drop first).take count).getLast?.elim bound f := by
  rw [List.getLast?_take]
  obtain rfl | positive := Nat.eq_zero_or_pos count
  · simp
  · rw [if_pos (Nat.lt_add_of_pos_right positive), if_neg (Nat.ne_of_gt positive),
      Nat.add_sub_assoc positive, ← List.getElem?_drop,
      List.getElem?_eq_getElem (Nat.lt_of_lt_of_le (Nat.sub_one_lt_of_lt positive) inside)]
    rfl

/-- The binary searches find the three parts of the row around the range. -/
theorem insertRange_eq (ranges : List MemoryRange) (offset stop : Nat) :
    insertRange ranges offset stop = insertSpan ranges ⟨offset, stop⟩ := by
  have hrest := drop_partitionPoint (fun range : MemoryRange => decide (range.stop < offset)) ranges
  have hbound := partitionPoint_le (fun range : MemoryRange => decide (range.start ≤ stop))
    (ranges.dropWhile fun range => decide (range.stop < offset))
  rw [← hrest] at hbound
  simp only [insertRange, insertSpan, joinSpan, elim_getLast?_take stop _ hbound]
  rw [take_partitionPoint, ← List.drop_drop, ← List.head?_drop, hrest, take_partitionPoint,
    drop_partitionPoint]

end Insert

/-! ## Any calls in a row -/

/-- A call of `insert`. -/
structure Insertion where
  buffer : BufferHandle
  offset : UInt64
  size : UInt64
deriving DecidableEq, Repr

/-- The bytes that a call inserts: none when their end is not a number of the machine. -/
def Insertion.Writes (call : Insertion) (buffer : BufferHandle) (i : Nat) : Prop :=
  call.buffer = buffer ∧ call.offset.toNat + call.size.toNat < 2 ^ 64 ∧
    call.offset.toNat ≤ i ∧ i < call.offset.toNat + call.size.toNat

/-- One call, which leaves the ranges as they are when it fails. -/
def insertCall (readbacks : Readbacks) (call : Insertion) : Readbacks :=
  (insert call.buffer call.offset call.size readbacks).2

/-- Calls one after another. -/
def insertAll (calls : List Insertion) : Readbacks := calls.foldl insertCall empty

/-- The ranges of every buffer are in order, apart, and have the bytes of the calls. -/
structure Tracks (readbacks : Readbacks) (calls : List Insertion) : Prop where
  nonempty : ∀ buffer, ∀ range ∈ readbacks.of buffer, range.start < range.stop
  separated : ∀ buffer, Separated (readbacks.of buffer)
  covered : ∀ buffer i, Covered (readbacks.of buffer) i ↔ ∃ call ∈ calls, call.Writes buffer i

section Runs

variable {readbacks : Readbacks} {calls : List Insertion} {call : Insertion}
  {buffer : BufferHandle}

/-- A call inserts nothing when its end overflows or it is empty. -/
theorem insertCall_eq : insertCall readbacks call =
    if call.offset.toNat + call.size.toNat < 2 ^ 64 ∧ call.size ≠ 0 then
      ⟨readbacks.ranges.alter call.buffer fun ranges =>
        some (insertRange (ranges.getD []) call.offset.toNat
          (call.offset.toNat + call.size.toNat))⟩
    else readbacks := by
  unfold insertCall insert checkedAddUsize
  by_cases fits : call.offset.toNat + call.size.toNat < 2 ^ 64
  · rw [if_pos fits]
    by_cases zero : call.size = 0
    · rw [if_neg fun h => h.2 zero]
      simp only [okOr, Fallible.bind_run, Fallible.lift_run, if_pos zero, Fallible.pure_run]
    · rw [if_pos ⟨fits, zero⟩]
      simp only [okOr, Fallible.bind_run, Fallible.lift_run, if_neg zero, Fallible.update_run]
  · rw [if_neg fits, if_neg fun h => fits h.1]
    rfl

theorem getD_alter_some (ranges : Std.TreeMap BufferHandle (List MemoryRange))
    (f : Option (List MemoryRange) → List MemoryRange) (key : BufferHandle) :
    (ranges.alter key fun old => some (f old)).getD buffer [] =
      if key = buffer then f ranges[key]? else ranges.getD buffer [] := by
  rw [Std.TreeMap.getD_alter]
  simp only [Std.LawfulEqCmp.compare_eq_iff_eq, Option.getD_some]

/-- The ranges after a call. -/
theorem of_insertCall : (insertCall readbacks call).of buffer =
    if (call.offset.toNat + call.size.toNat < 2 ^ 64 ∧ call.size ≠ 0) ∧ call.buffer = buffer then
      insertSpan (readbacks.of buffer) ⟨call.offset.toNat, call.offset.toNat + call.size.toNat⟩
    else readbacks.of buffer := by
  rw [insertCall_eq]
  by_cases inserts : call.offset.toNat + call.size.toNat < 2 ^ 64 ∧ call.size ≠ 0
  · rw [if_pos inserts, of, getD_alter_some, ← insertRange_eq]
    by_cases same : call.buffer = buffer
    · rw [if_pos same, if_pos ⟨inserts, same⟩, same, of, Std.TreeMap.getD_eq_getD_getElem?]
    · rw [if_neg same, if_neg fun h => same h.2]
      rfl
  · rw [if_neg inserts, if_neg fun h => inserts h.1]

/-- One call more. -/
theorem Tracks.insertCall (tracks : Tracks readbacks calls) :
    Tracks (insertCall readbacks call) (calls ++ [call]) := by
  have positive (h : call.size ≠ 0) : 0 < call.size.toNat :=
    Nat.pos_of_ne_zero fun zero => h (UInt64.toNat_inj.mp zero)
  constructor
  · intro buffer range member
    rw [of_insertCall] at member
    split at member
    · rename_i inserts
      have hpos := positive inserts.1.2
      obtain old | ⟨hstart, hstop⟩ := mem_insertSpan (tracks.separated buffer) (by simp) member
      · exact tracks.nonempty buffer range old
      · simp only at hstart hstop
        omega
    · exact tracks.nonempty buffer range member
  · intro buffer
    rw [of_insertCall]
    split
    · exact (tracks.separated buffer).insertSpan (by simp)
    · exact tracks.separated buffer
  · intro buffer i
    simp only [List.mem_append, List.mem_singleton, or_and_right, exists_or, exists_eq_left]
    rw [of_insertCall, ← tracks.covered buffer i]
    split
    · rename_i inserts
      rw [covered_insertSpan (tracks.separated buffer) (by simp)]
      exact or_congr_right (iff_of_eq (by simp only [Insertion.Writes, Span.Has, inserts, true_and]))
    · rename_i nothing
      refine (or_iff_left fun writes => nothing ⟨⟨writes.2.1, fun zero => ?_⟩, writes.1⟩).symm
      have hstop := writes.2.2.2
      rw [zero] at hstop
      exact absurd writes.2.2.1 (Nat.not_le_of_lt hstop)

theorem tracks_empty : Tracks empty [] where
  nonempty buffer range member := by simp [of, empty] at member
  separated buffer := by
    rw [of, empty, Std.TreeMap.getD_emptyc]
    exact separated_nil
  covered buffer i := by simp [of, empty]

/-- After any calls, the ranges of each buffer are in order and have the bytes of the calls. -/
theorem insertAll_tracks (calls : List Insertion) : Tracks (insertAll calls) calls := by
  unfold insertAll
  induction calls using List.reverseRecOn with
  | nil => exact tracks_empty
  | append_singleton calls call ih =>
      rw [List.foldl_append]
      exact ih.insertCall

/-- A query that is answered by no: no tracked byte is at the place of a byte of the range,
whichever buffers they are bytes of. -/
theorem apart_of_mayWrite {resources : Resources} {range : MemoryRange}
    (h : readbacks.mayWrite resources buffer range = false) {writer : BufferHandle} {i j : Nat}
    (writes : Covered (readbacks.of writer) i) (inside : range.Has j)
    {place : DeviceMemory × Nat} (written : allocationByte resources writer i = some place) :
    allocationByte resources buffer j ≠ some place := by
  obtain ⟨tracked, htracked, hi⟩ := writes
  have hlist : (writer, readbacks.of writer) ∈ readbacks.ranges.toList := by
    rw [Std.TreeMap.mem_toList_iff_getElem?_eq_some]
    rw [of, Std.TreeMap.getD_eq_getD_getElem?] at htracked ⊢
    cases hget : readbacks.ranges[writer]? with
    | none => simp [hget] at htracked
    | some ranges => rfl
  unfold mayWrite at h
  split at h
  · cases h
  rename_i memory target htarget
  rw [List.any_eq_false] at h
  have hranges := h _ hlist
  simp only [List.any_eq_true, not_exists, not_and] at hranges
  have hrange := hranges tracked htracked
  split at hrange
  · exact absurd rfl hrange
  rename_i memory' target' htarget'
  intro same
  -- both places, from the metadata of the two buffers
  obtain ⟨data, offset, hdata, hbound, hplace⟩ := allocationByte_eq_some.mp written
  obtain ⟨query, start, hquery, hstart, hsame⟩ := allocationByte_eq_some.mp same
  obtain ⟨_, _, _, hdata', hbound', -, -, -, -, rfl⟩ := allocationRange_eq_some htarget'
  obtain ⟨_, _, _, hquery', hstart', -, -, -, -, rfl⟩ := allocationRange_eq_some htarget
  rw [hdata, Option.some.injEq] at hdata'
  rw [hquery, Option.some.injEq] at hquery'
  subst hdata' hquery'
  rw [hbound, Option.some.injEq, Prod.mk.injEq] at hbound'
  rw [hstart, Option.some.injEq, Prod.mk.injEq] at hstart'
  obtain ⟨rfl, rfl⟩ := hbound'
  obtain ⟨hmemory, rfl⟩ := hstart'
  refine hrange ?_
  simp only [Bool.and_eq_true, decide_eq_true_eq]
  obtain ⟨hi, hi'⟩ := hi
  obtain ⟨hj, hj'⟩ := inside
  exact ⟨⟨hmemory.symm, by omega⟩, by omega⟩

/-- The same of the calls. -/
theorem mayWrite_false {resources : Resources} {range : MemoryRange}
    (tracks : Tracks readbacks calls) (h : readbacks.mayWrite resources buffer range = false)
    {writer : BufferHandle} (member : call ∈ calls) {i j : Nat} (writes : call.Writes writer i)
    (inside : range.Has j) {place : DeviceMemory × Nat}
    (written : allocationByte resources writer i = some place) :
    allocationByte resources buffer j ≠ some place :=
  apart_of_mayWrite h ((tracks.covered writer i).mpr ⟨call, member, writes⟩) inside written

end Runs

end Readbacks

end Sgfx.Vulkan
