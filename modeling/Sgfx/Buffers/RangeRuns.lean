import Mathlib.Data.List.Induction
import Sgfx.Buffers.Ranges

/-!
# Runs of a range index

Every sequence of inserts, some of which find no memory.  After it each byte belongs to the
last accepted insert that covers it, and a query returns the segments it meets.

## Main Definitions

* `RangeIndex.run` — the index after some inserts, with the writes that were accepted
* `lastWrite` — the last of some writes that covers a byte
* `RangeIndex.LastWriterWins`

## Main Results

* `RangeIndex.query_eq_filter`
* `RangeIndex.run_lastWriterWins`
-/

namespace Sgfx.Ranges

/-- A range and what is written there. -/
structure RangeWrite where
  range : ByteRange
  write : Nat

/-- A range covers a byte. -/
def RangeWrite.covers (w : RangeWrite) (i : Nat) : Bool :=
  decide (w.range.start ≤ i) && decide (i < w.range.stop)

/-- The last of some writes that covers a byte. -/
def lastWrite (writes : List RangeWrite) (i : Nat) : Option Nat :=
  (writes.reverse.find? fun w => w.covers i).map RangeWrite.write

/-- A segment shares a byte with a range. -/
def Segment.meets (range : ByteRange) (segment : Segment) : Bool :=
  decide (max segment.start range.start < min segment.stop range.stop)

namespace RangeIndex

/-- An insert, for which there may be memory or not. -/
structure Insert extends RangeWrite where
  memory : Bool

/-- One insert; one that fails leaves the index as it is. -/
def step (s : RangeIndex × List RangeWrite) (request : Insert) : RangeIndex × List RangeWrite :=
  match s.1.insert request.range request.write request.memory with
  | some index => (index, s.2 ++ [request.toRangeWrite])
  | none => s

/-- The index after some inserts, and the writes that were accepted. -/
def run (requests : List Insert) : RangeIndex × List RangeWrite :=
  requests.foldl step (empty, [])

/-! ## Queries -/

/-- The segments that share a byte with a range are those around it in the middle. -/
theorem Parted.filter_eq {segments low middle high : List Segment} {range : ByteRange}
    (p : Parted segments range low middle high) (o : Ordered segments)
    (less : range.start < range.stop) : segments.filter (Segment.meets range) = middle := by
  have hlow : low.filter (Segment.meets range) = [] := by
    rw [List.filter_eq_nil_iff]
    intro segment member hmeets
    have := p.low_stop segment member
    rw [Segment.meets, decide_eq_true_eq] at hmeets
    omega
  have hhigh : high.filter (Segment.meets range) = [] := by
    rw [List.filter_eq_nil_iff]
    intro segment member hmeets
    have := p.high_start segment member
    rw [Segment.meets, decide_eq_true_eq] at hmeets
    omega
  have hmiddle : middle.filter (Segment.meets range) = middle := by
    rw [List.filter_eq_self]
    intro segment member
    have starts := p.middle_start segment member
    have stops := p.middle_stop segment member
    have nonempty := o.nonempty segment (by
      rw [p.joined]
      exact List.mem_append_right _ (List.mem_append_left _ member))
    rw [Segment.meets, decide_eq_true_eq]
    omega
  rw [p.joined, List.filter_append, List.filter_append, hlow, hmiddle, hhigh,
    List.nil_append, List.append_nil]

/-- A query returns the segments that it meets, in their order. -/
theorem query_eq_filter {index : RangeIndex} (o : Ordered index.segments) (range : ByteRange) :
    index.query range = index.segments.filter (Segment.meets range) := by
  rw [query, intersecting]
  by_cases less : range.start < range.stop
  · have hempty : ¬ range.isEmpty = true := by
      rw [ByteRange.isEmpty, decide_eq_true_eq]
      exact Nat.not_le_of_lt less
    rw [if_neg hempty, (((Parts.of index.segments range).parted o).filter_eq o less)]
    show (List.drop _ _).take _ = _
    rw [take_partitionPoint, drop_partitionPoint]
    rfl
  · -- A range without bytes meets nothing.
    rw [ByteRange.isEmpty, if_pos (decide_eq_true (Nat.le_of_not_lt less)), List.take_zero]
    symm
    rw [List.filter_eq_nil_iff]
    intro segment _ hmeets
    rw [Segment.meets, decide_eq_true_eq] at hmeets
    omega

/-! ## Runs -/

/-- What an index says about the writes it has accepted. -/
structure LastWriterWins (index : RangeIndex) (writes : List RangeWrite) : Prop where
  ordered : Ordered index.segments
  writeAt_eq : ∀ i, index.writeAt i = lastWrite writes i
  owned : ∀ i w, lastWrite writes i = some w ↔
    ∃ segment ∈ index.segments, segment.covers i = true ∧ segment.write = w
  query_eq : ∀ range, index.query range = index.segments.filter (Segment.meets range)

theorem LastWriterWins.of_writeAt {index : RangeIndex} {writes : List RangeWrite}
    (o : Ordered index.segments) (h : ∀ i, index.writeAt i = lastWrite writes i) :
    LastWriterWins index writes where
  ordered := o
  writeAt_eq := h
  owned i w := by
    rw [← h i]
    exact writeAt_eq_some_iff o
  query_eq := query_eq_filter o

theorem lastWrite_concat (writes : List RangeWrite) (w : RangeWrite) (i : Nat) :
    lastWrite (writes ++ [w]) i =
      if w.range.start ≤ i ∧ i < w.range.stop then some w.write else lastWrite writes i := by
  rw [lastWrite, List.reverse_append, List.reverse_singleton, List.singleton_append,
    List.find?_cons]
  split
  · rename_i covers
    rw [RangeWrite.covers, Bool.and_eq_true, decide_eq_true_eq, decide_eq_true_eq] at covers
    rw [if_pos covers]
    rfl
  · rename_i outside
    rw [RangeWrite.covers, Bool.and_eq_false_iff, decide_eq_false_iff_not,
      decide_eq_false_iff_not] at outside
    rw [if_neg (by omega)]
    rfl

/-- An insert with memory is accepted. -/
theorem insert_of_memory (index : RangeIndex) (range : ByteRange) (write : Nat) :
    ∃ index', index.insert range write true = some index' := by
  rw [insert]
  split
  · exact ⟨_, rfl⟩
  · refine ⟨_, if_neg ?_⟩
    rintro ⟨-, h⟩
    cases h

theorem run_concat (requests : List Insert) (request : Insert) :
    run (requests ++ [request]) = step (run requests) request := by
  rw [run, List.foldl_append]
  rfl

theorem step_accepted {s : RangeIndex × List RangeWrite} {request : Insert} {index : RangeIndex}
    (h : s.1.insert request.range request.write request.memory = some index) :
    step s request = (index, s.2 ++ [request.toRangeWrite]) := by
  rw [step, h]

theorem LastWriterWins.step {s : RangeIndex × List RangeWrite} (h : LastWriterWins s.1 s.2)
    (request : Insert) :
    LastWriterWins (RangeIndex.step s request).1 (RangeIndex.step s request).2 := by
  rw [RangeIndex.step]
  cases hinsert : s.1.insert request.range request.write request.memory with
  | none => exact h
  | some index =>
    apply LastWriterWins.of_writeAt (insert_ordered h.ordered hinsert)
    intro i
    rw [writeAt_insert h.ordered hinsert, lastWrite_concat, h.writeAt_eq]

/-- **The last writer wins.**  After every sequence of inserts, some of which may find no
memory, the segments are in order, not empty and disjoint, each byte belongs to the last
accepted insert that covers it, and every query returns exactly the segments it meets, in
order; inserts that find memory are all accepted. -/
theorem run_lastWriterWins (requests : List Insert) :
    LastWriterWins (run requests).1 (run requests).2 ∧
      (run (requests.map fun request => { request with memory := true })).2 =
        requests.map Insert.toRangeWrite := by
  constructor
  · induction requests using List.reverseRecOn with
    | nil =>
      have ordered : Ordered empty.segments := by
        constructor
        · intro segment member
          cases member
        · exact List.Pairwise.nil
      exact .of_writeAt ordered fun i => rfl
    | append_singleton requests request ih =>
      rw [run_concat]
      exact ih.step request
  · induction requests using List.reverseRecOn with
    | nil => rfl
    | append_singleton requests request ih =>
      obtain ⟨index, hindex⟩ := insert_of_memory
        (run (requests.map fun request => { request with memory := true })).1
        request.range request.write
      rw [List.map_append, List.map_append, ← ih, List.map_singleton, run_concat,
        step_accepted hindex]
      rfl

end RangeIndex

end Sgfx.Ranges
