import Mathlib.Data.List.Basic
import Mathlib.Data.List.TakeWhile
import Sgfx.Buffers.Diff
import Sgfx.Library.Intervals

/-!
# Last-write-wins range views

A `RangeIndex` says, for every byte, which of the chronological writes wrote it last.
It keeps disjoint segments in ascending order; inserting a range removes what it
covers and splits what it overlaps, in place.

## Main Definitions

* `partitionPoint`, `intersecting`
* `Segment`, `RangeIndex.insert`
* `writeAt` — the last write of a byte

## Main Results

* `insert_segments` — what the in-place steps of `insert` amount to
* `insert_ordered`, `writeAt_insert`
* `find?_intersecting` — a query finds the segment of each of its bytes
-/

namespace Sgfx.Ranges

/-- `slice::partition_point`, of a slice that satisfies `p` up to some index. -/
def partitionPoint {α : Type} (p : α → Bool) (items : List α) : Nat := (items.takeWhile p).length

/-- `intersecting`. -/
def intersecting {α : Type} (items : List α) (range : ByteRange) (bounds : α → ByteRange) :
    List α :=
  if range.isEmpty then items.take 0
  else
    let first := partitionPoint (fun item => decide ((bounds item).stop ≤ range.start)) items
    let remaining := items.drop first
    let count := partitionPoint (fun item => decide ((bounds item).start < range.stop)) remaining
    remaining.take count

/-- `Segment`. -/
structure Segment where
  start : Nat
  stop : Nat
  write : Nat
deriving DecidableEq, Repr

/-- The bytes of a segment. -/
def Segment.range (segment : Segment) : ByteRange := ⟨segment.start, segment.stop⟩

/-- A segment covers a byte. -/
def Segment.covers (segment : Segment) (i : Nat) : Bool :=
  decide (segment.start ≤ i) && decide (i < segment.stop)

/-- `RangeIndex`. -/
structure RangeIndex where
  segments : List Segment

namespace RangeIndex

/-- The empty index. -/
def empty : RangeIndex := ⟨[]⟩

/-- `query`. -/
def query (index : RangeIndex) (range : ByteRange) : List Segment :=
  intersecting index.segments range Segment.range

/-- The part of `insert` that moves the tail, up to `truncate`: the segments from
`first` to `last` make room for `added` ones. -/
def makeRoom (segments : List Segment) (segment : Segment) (first last added : Nat) :
    List Segment :=
  let oldLength := segments.length
  let newLength := oldLength - (last - first) + added
  let segments := if oldLength < newLength
    then segments ++ List.replicate (newLength - oldLength) segment else segments
  -- `copy_within(last..old_len, first + added)`
  (Bytes.splice segments (first + added) ((segments.drop last).take (oldLength - last))).take
    newLength

/-- The assignments at the end of `insert`. -/
def setPieces (segments : List Segment) (first : Nat) (before : Option Segment)
    (segment : Segment) (after : Option Segment) : List Segment :=
  let (segments, at_) := match before with
    | some before => (segments.set first before, first + 1)
    | none => (segments, first)
  let segments := segments.set at_ segment
  match after with
  | some after => segments.set (at_ + 1) after
  | none => segments

/-- The part of the first segment removed that is kept. -/
def leftPiece (segments : List Segment) (first start : Nat) : Option Segment :=
  (segments[first]?.filter fun s => s.start < start).map fun s => { s with stop := start }

/-- The part of the last segment removed that is kept. -/
def rightPiece (segments : List Segment) (first last stop : Nat) : Option Segment :=
  if first < last then
    (segments[last - 1]?.filter fun s => stop < s.stop).map fun s => { s with start := stop }
  else none

/-- `insert`; without memory it fails when the segments need more. -/
def insert (index : RangeIndex) (range : ByteRange) (write : Nat) (memory : Bool) :
    Option RangeIndex :=
  if range.isEmpty then some index
  else
    let segments := index.segments
    let first := partitionPoint (fun s => decide (s.stop ≤ range.start)) segments
    let last := first + partitionPoint (fun s => decide (s.start < range.stop)) (segments.drop first)
    let before := leftPiece segments first range.start
    let after := rightPiece segments first last range.stop
    let added := 1 + before.toList.length + after.toList.length
    let segment : Segment := ⟨range.start, range.stop, write⟩
    if added - (last - first) ≠ 0 ∧ memory = false then none
    else some ⟨setPieces (makeRoom segments segment first last added) first before segment after⟩

end RangeIndex

/-! ## Partition points -/

theorem partitionPoint_le {α : Type} (p : α → Bool) (items : List α) :
    partitionPoint p items ≤ items.length := (List.takeWhile_prefix p).length_le

theorem take_partitionPoint {α : Type} (p : α → Bool) (items : List α) :
    items.take (partitionPoint p items) = items.takeWhile p :=
  (List.prefix_iff_eq_take.mp (List.takeWhile_prefix p)).symm

theorem drop_partitionPoint {α : Type} (p : α → Bool) (items : List α) :
    items.drop (partitionPoint p items) = items.dropWhile p := by
  have joined : items.takeWhile p ++ items.drop (partitionPoint p items) =
      items.takeWhile p ++ items.dropWhile p := by
    rw [List.takeWhile_append_dropWhile, ← take_partitionPoint, List.take_append_drop]
  exact List.append_cancel_left joined

/-! ## Inserting in place -/

/-- The pieces that `insert` puts in the place of the segments it removes. -/
def pieces (before : Option Segment) (segment : Segment) (after : Option Segment) : List Segment :=
  before.toList ++ segment :: after.toList

/-- Setting the pieces one after another. -/
theorem setPieces_eq (xs ys zs : List Segment) (before : Option Segment) (segment : Segment)
    (after : Option Segment) (length : ys.length = (pieces before segment after).length) :
    RangeIndex.setPieces (xs ++ ys ++ zs) xs.length before segment after =
      xs ++ pieces before segment after ++ zs := by
  have next : ∀ (us : List Segment) (n : Nat) (s : Segment),
      (xs ++ us).set (xs.length + n) s = xs ++ us.set n s := by
    intro us n s
    rw [List.set_append_right _ _ (Nat.le_add_right ..), Nat.add_sub_cancel_left]
  have start : ∀ (us : List Segment) (s : Segment), (xs ++ us).set xs.length s = xs ++ us.set 0 s :=
    fun us s => next us 0 s
  cases before <;> cases after <;>
    simp only [pieces, Option.toList_none, Option.toList_some, List.nil_append, List.cons_append,
      List.length_cons, List.length_nil] at length
  · obtain ⟨a, rfl⟩ := List.length_eq_one_iff.mp length
    simp [RangeIndex.setPieces, start, pieces]
  · obtain ⟨a, b, rfl⟩ := List.length_eq_two.mp length
    simp [RangeIndex.setPieces, start, next, pieces]
  · obtain ⟨a, b, rfl⟩ := List.length_eq_two.mp length
    simp [RangeIndex.setPieces, start, next, pieces]
  · obtain ⟨a, b, c, rfl⟩ := List.length_eq_three.mp length
    simp [RangeIndex.setPieces, start, next, pieces, Nat.add_assoc]

/-- Making room keeps what is before `first` and what is from `last` on. -/
theorem makeRoom_eq (segments : List Segment) (segment : Segment) (first last added : Nat)
    (order : first ≤ last) (inside : last ≤ segments.length) :
    ∃ ys : List Segment, ys.length = added ∧
      RangeIndex.makeRoom segments segment first last added =
        segments.take first ++ ys ++ segments.drop last := by
  -- The list is long enough, and starts with the old segments.
  obtain ⟨fill, grown, enough⟩ : ∃ fill : List Segment,
      (if segments.length < segments.length - (last - first) + added
        then segments ++ List.replicate (segments.length - (last - first) + added -
          segments.length) segment else segments) = segments ++ fill ∧
      segments.length - (last - first) + added ≤ segments.length + fill.length := by
    split
    · exact ⟨_, rfl, by rw [List.length_replicate]; omega⟩
    · exact ⟨[], (List.append_nil _).symm, by omega⟩
  have moved : ((segments ++ fill).drop last).take (segments.length - last) = segments.drop last := by
    rw [List.drop_append_of_le_length inside, List.take_left' (List.length_drop)]
  simp only [RangeIndex.makeRoom]
  rw [grown, moved, Bytes.splice]
  refine ⟨((segments ++ fill).take (first + added)).drop first, ?_, ?_⟩
  · rw [List.length_drop, List.length_take, List.length_append]
    omega
  · have kept : ((segments ++ fill).take (first + added)).take first = segments.take first := by
      rw [List.take_take, Nat.min_eq_left (Nat.le_add_right ..),
        List.take_append_of_le_length (by omega)]
    rw [← kept, List.take_append_drop]
    refine List.take_left' ?_
    rw [List.length_append, List.length_take, List.length_append, List.length_drop]
    omega

namespace RangeIndex

theorem leftPiece_eq (segments : List Segment) (first start : Nat) :
    leftPiece segments first start =
      ((segments.drop first).head?.filter fun s => s.start < start).map
        fun s => { s with stop := start } := by
  rw [leftPiece, List.head?_drop]

theorem rightPiece_eq (segments : List Segment) (first count stop : Nat)
    (inside : count ≤ (segments.drop first).length) :
    rightPiece segments first (first + count) stop =
      (((segments.drop first).take count).getLast?.filter fun s => stop < s.stop).map
        fun s => { s with start := stop } := by
  rw [rightPiece]
  split
  · rename_i some
    have last : ((segments.drop first).take count).getLast? = segments[first + count - 1]? := by
      rw [List.getLast?_eq_getElem?, List.length_take, Nat.min_eq_left inside,
        List.getElem?_take_of_lt (by omega), List.getElem?_drop]
      congr 1
      omega
    rw [last]
  · rename_i none
    have zero : count = 0 := by omega
    rw [zero]
    rfl

/-- The segments that end before a range, those that intersect it, and the rest. -/
structure Parts (segments : List Segment) (range : ByteRange) where
  low : List Segment
  middle : List Segment
  high : List Segment
  low_eq : low = segments.takeWhile fun s => decide (s.stop ≤ range.start)
  middle_eq : middle = (segments.dropWhile fun s => decide (s.stop ≤ range.start)).takeWhile
    fun s => decide (s.start < range.stop)
  high_eq : high = (segments.dropWhile fun s => decide (s.stop ≤ range.start)).dropWhile
    fun s => decide (s.start < range.stop)

/-- What the steps of `insert` amount to. -/
theorem insert_segments {index index' : RangeIndex} {range : ByteRange} {write : Nat}
    {memory : Bool} (h : index.insert range write memory = some index')
    (nonempty : range.isEmpty = false) (p : Parts index.segments range) :
    index'.segments = p.low ++
      pieces (((p.middle ++ p.high).head?.filter fun s => s.start < range.start).map
          fun s => { s with stop := range.start })
        ⟨range.start, range.stop, write⟩
        ((p.middle.getLast?.filter fun s => range.stop < s.stop).map
          fun s => { s with start := range.stop }) ++ p.high := by
  obtain ⟨low, middle, high, hlow, hmiddle, hhigh⟩ := p
  simp only
  rw [insert, nonempty] at h
  simp only [Bool.false_eq_true, if_false] at h
  generalize hfirst : partitionPoint (fun s : Segment => decide (s.stop ≤ range.start))
    index.segments = first at h
  generalize hcount : partitionPoint (fun s : Segment => decide (s.start < range.stop))
    (index.segments.drop first) = count at h
  have rest : index.segments.drop first =
      index.segments.dropWhile fun s => decide (s.stop ≤ range.start) := by
    rw [← hfirst, drop_partitionPoint]
  have hmiddle' : middle = (index.segments.drop first).take count := by
    rw [hmiddle, ← rest, ← hcount, take_partitionPoint]
  have hhigh' : high = index.segments.drop (first + count) := by
    rw [hhigh, ← rest, ← List.drop_drop, ← hcount, drop_partitionPoint]
  have hlow' : low = index.segments.take first := by
    rw [hlow, ← hfirst, take_partitionPoint]
  have joined : middle ++ high = index.segments.drop first := by
    rw [hmiddle', hhigh', ← List.drop_drop, List.take_append_drop]
  have inside : count ≤ (index.segments.drop first).length := by
    rw [← hcount]
    exact partitionPoint_le ..
  have bound : first ≤ index.segments.length := by
    rw [← hfirst]
    exact partitionPoint_le ..
  rw [leftPiece_eq, rightPiece_eq _ _ _ _ inside, ← hmiddle', ← joined] at h
  generalize ((middle ++ high).head?.filter fun s => decide (s.start < range.start)).map
    (fun s => ({ s with stop := range.start } : Segment)) = before at h ⊢
  generalize (middle.getLast?.filter fun s => decide (range.stop < s.stop)).map
    (fun s => ({ s with start := range.stop } : Segment)) = after at h ⊢
  obtain ⟨ys, length, room⟩ := makeRoom_eq index.segments ⟨range.start, range.stop, write⟩ first
    (first + count) (1 + before.toList.length + after.toList.length) (Nat.le_add_right ..) (by
      rw [List.length_drop] at inside
      omega)
  split at h
  · cases h
  · obtain rfl := Option.some.inj h
    have first_eq : first = low.length := by
      rw [hlow', List.length_take]
      omega
    rw [room, ← hlow', ← hhigh', first_eq, setPieces_eq]
    rw [length, pieces, List.length_append, List.length_cons]
    omega

/-! ## Ordered segments -/

/-- Disjoint segments in ascending order, none of them empty. -/
structure Ordered (segments : List Segment) : Prop where
  nonempty : ∀ s ∈ segments, s.start < s.stop
  ascending : segments.Pairwise fun s t => s.stop ≤ t.start

/-- Where the three parts of an ordered list are. -/
structure Parted (segments : List Segment) (range : ByteRange) (low middle high : List Segment) :
    Prop where
  joined : segments = low ++ (middle ++ high)
  low_stop : ∀ s ∈ low, s.stop ≤ range.start
  middle_start : ∀ s ∈ middle, s.start < range.stop
  middle_stop : ∀ s ∈ middle, range.start < s.stop
  high_start : ∀ s ∈ high, range.stop ≤ s.start

theorem Parts.parted {segments : List Segment} {range : ByteRange} (p : Parts segments range)
    (o : Ordered segments) : Parted segments range p.low p.middle p.high := by
  obtain ⟨low, middle, high, rfl, rfl, rfl⟩ := p
  have rest : ∀ s ∈ segments.dropWhile fun s => decide (s.stop ≤ range.start),
      decide (s.stop ≤ range.start) = false := by
    refine not_of_mem_dropWhile o.ascending fun s _ t ht order fails => ?_
    have := o.nonempty t ht
    simp only [decide_eq_false_iff_not] at fails ⊢
    omega
  have sub : (segments.dropWhile fun s => decide (s.stop ≤ range.start)).Sublist segments :=
    List.dropWhile_sublist _
  have last : ∀ s ∈ (segments.dropWhile fun s => decide (s.stop ≤ range.start)).dropWhile
      fun s => decide (s.start < range.stop), decide (s.start < range.stop) = false := by
    refine not_of_mem_dropWhile (o.ascending.sublist sub) fun s hs t ht order fails => ?_
    have := o.nonempty s (sub.subset hs)
    simp only [decide_eq_false_iff_not] at fails ⊢
    omega
  exact {
    joined := by rw [List.takeWhile_append_dropWhile, List.takeWhile_append_dropWhile]
    low_stop := fun s member => by simpa using List.mem_takeWhile_imp member
    middle_start := fun s member => by simpa using List.mem_takeWhile_imp member
    middle_stop := fun s member => by
      have := rest s ((List.takeWhile_sublist _).subset member)
      simpa using this
    high_start := fun s member => by
      have := last s member
      simpa using this }

/-- The parts of a list around a range. -/
def Parts.of (segments : List Segment) (range : ByteRange) : Parts segments range :=
  ⟨_, _, _, rfl, rfl, rfl⟩

variable {segments low middle high : List Segment} {range : ByteRange}

/-- The piece kept on the left is the start of the first segment in the middle. -/
theorem Parted.leftPiece (p : Parted segments range low middle high)
    (nonempty : range.start < range.stop) {b : Segment}
    (h : ((middle ++ high).head?.filter fun s => s.start < range.start).map
      (fun s => ({ s with stop := range.start } : Segment)) = some b) :
    ∃ first tail, middle = first :: tail ∧ first.start < range.start ∧
      b = { first with stop := range.start } := by
  obtain ⟨s, found, rfl⟩ := Option.map_eq_some_iff.mp h
  obtain ⟨head, less⟩ := Option.filter_eq_some_iff.mp found
  have less : s.start < range.start := of_decide_eq_true less
  cases middle with
  | nil =>
      have member : s ∈ high := List.mem_of_head? head
      have := p.high_start s member
      omega
  | cons first tail =>
      obtain rfl := Option.some.inj head
      exact ⟨first, tail, rfl, less, rfl⟩

/-- The piece kept on the right is the end of the last segment in the middle. -/
theorem Parted.rightPiece {a : Segment}
    (h : (middle.getLast?.filter fun s => range.stop < s.stop).map
      (fun s => ({ s with start := range.stop } : Segment)) = some a) :
    ∃ init last, middle = init ++ [last] ∧ range.stop < last.stop ∧
      a = { last with start := range.stop } := by
  obtain ⟨s, found, rfl⟩ := Option.map_eq_some_iff.mp h
  obtain ⟨last, less⟩ := Option.filter_eq_some_iff.mp found
  obtain ⟨init, rfl⟩ := List.getLast?_eq_some_iff.mp last
  exact ⟨init, s, rfl, of_decide_eq_true less, rfl⟩

/-! ## Inserting -/

/-- The segments after an insertion: the new one, and the parts of the old ones
outside it. -/
structure Inserted (segments : List Segment) (range : ByteRange) (write : Nat)
    (segments' : List Segment) : Prop where
  ordered : Ordered segments'
  new : ⟨range.start, range.stop, write⟩ ∈ segments'
  within : ∀ t ∈ segments', t = ⟨range.start, range.stop, write⟩ ∨
    ∃ s ∈ segments, t.write = s.write ∧ s.start ≤ t.start ∧ t.stop ≤ s.stop ∧
      (t.stop ≤ range.start ∨ range.stop ≤ t.start)
  kept : ∀ s ∈ segments, ∀ i, s.covers i = true → ¬ (range.start ≤ i ∧ i < range.stop) →
    ∃ t ∈ segments', t.write = s.write ∧ t.covers i = true

theorem Segment.covers_iff {s : Segment} {i : Nat} :
    s.covers i = true ↔ s.start ≤ i ∧ i < s.stop := by
  rw [Segment.covers, Bool.and_eq_true, decide_eq_true_eq, decide_eq_true_eq]

theorem pairwise_option {R : Segment → Segment → Prop} (o : Option Segment) :
    o.toList.Pairwise R := by
  cases o with
  | none => exact .nil
  | some s => exact List.pairwise_singleton ..

/-- The pieces put in the place of the middle: `before` is what the middle has left of
the range, and `after` what it has right of it. -/
structure Replaces (middle : List Segment) (range : ByteRange) (before after : Option Segment) :
    Prop where
  left : ∀ b ∈ before.toList, ∃ s ∈ middle, s.start < range.start ∧
    b = { s with stop := range.start }
  right : ∀ a ∈ after.toList, ∃ s ∈ middle, range.stop < s.stop ∧
    a = { s with start := range.stop }
  left_kept : ∀ s ∈ middle, s.start < range.start → { s with stop := range.start } ∈ before.toList
  right_kept : ∀ s ∈ middle, range.stop < s.stop → { s with start := range.stop } ∈ after.toList

theorem Parted.replaces (p : Parted segments range low middle high) (o : Ordered segments)
    (nonempty : range.start < range.stop) :
    Replaces middle range
      (((middle ++ high).head?.filter fun s => s.start < range.start).map
        fun s => { s with stop := range.start })
      ((middle.getLast?.filter fun s => range.stop < s.stop).map
        fun s => { s with start := range.stop }) := by
  have middles : middle.Pairwise fun s t => s.stop ≤ t.start := by
    have ascending := o.ascending
    rw [p.joined, List.pairwise_append, List.pairwise_append] at ascending
    exact ascending.2.1.1
  refine ⟨?_, ?_, ?_, ?_⟩
  · intro b member
    obtain ⟨first, tail, rfl, less, rfl⟩ := p.leftPiece nonempty (Option.mem_toList.mp member)
    exact ⟨first, List.mem_cons_self, less, rfl⟩
  · intro a member
    obtain ⟨init, last, rfl, less, rfl⟩ := Parted.rightPiece (Option.mem_toList.mp member)
    exact ⟨last, List.mem_append_right _ List.mem_cons_self, less, rfl⟩
  · -- Only the first segment of the middle starts before the range.
    intro s member less
    cases middle with
    | nil => cases member
    | cons first tail =>
        rcases List.mem_cons.mp member with rfl | later
        · simp [less]
        · have order := (List.pairwise_cons.mp middles).1 s later
          have := p.middle_stop first List.mem_cons_self
          omega
  · -- Only the last one ends after it.
    intro s member less
    rcases List.eq_nil_or_concat middle with rfl | ⟨init, last, rfl⟩
    · cases member
    · rw [List.concat_eq_append] at *
      rcases List.mem_append.mp member with earlier | here
      · have order := (List.pairwise_append.mp middles).2.2 s earlier last List.mem_cons_self
        have := p.middle_start last (List.mem_append_right _ List.mem_cons_self)
        omega
      · obtain rfl := List.mem_singleton.mp here
        simp [less]

theorem Parted.inserted (p : Parted segments range low middle high) (o : Ordered segments)
    (nonempty : range.start < range.stop) (write : Nat) {before after : Option Segment}
    (r : Replaces middle range before after) :
    Inserted segments range write
      (low ++ pieces before ⟨range.start, range.stop, write⟩ after ++ high) := by
  have positive := o.nonempty
  have ascending := o.ascending
  rw [p.joined] at positive ascending
  rw [List.pairwise_append, List.pairwise_append] at ascending
  obtain ⟨lows, ⟨-, highs, middle_high⟩, low_rest⟩ := ascending
  have mem : ∀ t, t ∈ low ++ pieces before ⟨range.start, range.stop, write⟩ after ++ high ↔
      t ∈ low ∨ t ∈ before.toList ∨ t = ⟨range.start, range.stop, write⟩ ∨ t ∈ after.toList ∨
        t ∈ high := by
    intro t
    simp only [pieces, List.mem_append, List.mem_cons, or_assoc]
  have parts : ∀ s, s ∈ segments ↔ s ∈ low ∨ s ∈ middle ∨ s ∈ high := by
    intro s
    rw [p.joined, List.mem_append, List.mem_append]
  refine ⟨⟨?_, ?_⟩, (mem _).mpr (.inr (.inr (.inl rfl))), ?_, ?_⟩
  · intro t member
    rcases (mem t).mp member with h | h | rfl | h | h
    · exact positive t (List.mem_append_left _ h)
    · obtain ⟨s, -, less, rfl⟩ := r.left t h
      exact less
    · exact nonempty
    · obtain ⟨s, -, less, rfl⟩ := r.right t h
      exact less
    · exact positive t (List.mem_append_right _ (List.mem_append_right _ h))
  · rw [pieces, List.append_assoc, List.pairwise_append, List.append_assoc, List.pairwise_append,
      List.cons_append, List.pairwise_cons, List.pairwise_append]
    refine ⟨lows, ⟨pairwise_option _, ⟨?_, pairwise_option _, highs, ?_⟩, ?_⟩, ?_⟩
    · intro t member
      rcases List.mem_append.mp member with h | h
      · obtain ⟨s, -, less, rfl⟩ := r.right t h
        exact Nat.le_refl _
      · exact p.high_start t h
    · intro a ha t ht
      obtain ⟨s, hs, -, rfl⟩ := r.right a ha
      exact middle_high s hs t ht
    · intro b hb t ht
      obtain ⟨s, hs, less, rfl⟩ := r.left b hb
      rcases List.mem_cons.mp ht with rfl | h
      · exact Nat.le_refl _
      rcases List.mem_append.mp h with h | h
      · obtain ⟨s', -, -, rfl⟩ := r.right t h
        exact Nat.le_of_lt nonempty
      · exact Nat.le_trans (Nat.le_of_lt nonempty) (p.high_start t h)
    · intro t ht u hu
      have stop := p.low_stop t ht
      rcases List.mem_append.mp hu with h | h
      · obtain ⟨s, hs, less, rfl⟩ := r.left u h
        exact low_rest t ht s (List.mem_append_left _ hs)
      rcases List.mem_cons.mp h with rfl | h
      · exact stop
      rcases List.mem_append.mp h with h | h
      · obtain ⟨s', -, -, rfl⟩ := r.right u h
        exact Nat.le_trans stop (Nat.le_of_lt nonempty)
      · exact low_rest t ht u (List.mem_append_right _ h)
  · intro t member
    rcases (mem t).mp member with h | h | rfl | h | h
    · exact .inr ⟨t, (parts t).mpr (.inl h), rfl, Nat.le_refl _, Nat.le_refl _,
        .inl (p.low_stop t h)⟩
    · obtain ⟨s, hs, less, rfl⟩ := r.left t h
      exact .inr ⟨s, (parts s).mpr (.inr (.inl hs)), rfl, Nat.le_refl _,
        Nat.le_of_lt (p.middle_stop s hs), .inl (Nat.le_refl _)⟩
    · exact .inl rfl
    · obtain ⟨s, hs, less, rfl⟩ := r.right t h
      exact .inr ⟨s, (parts s).mpr (.inr (.inl hs)), rfl, Nat.le_of_lt (p.middle_start s hs),
        Nat.le_refl _, .inr (Nat.le_refl _)⟩
    · exact .inr ⟨t, (parts t).mpr (.inr (.inr h)), rfl, Nat.le_refl _, Nat.le_refl _,
        .inr (p.high_start t h)⟩
  · intro s member i covers outside
    obtain ⟨lower, upper⟩ := Segment.covers_iff.mp covers
    rcases (parts s).mp member with h | h | h
    · exact ⟨s, (mem s).mpr (.inl h), rfl, covers⟩
    · by_cases below : i < range.start
      · exact ⟨_, (mem _).mpr (.inr (.inl (r.left_kept s h (by omega)))), rfl,
          Segment.covers_iff.mpr ⟨lower, below⟩⟩
      · exact ⟨_, (mem _).mpr (.inr (.inr (.inr (.inl (r.right_kept s h (by omega)))))), rfl,
          Segment.covers_iff.mpr ⟨by show range.stop ≤ i; omega, upper⟩⟩
    · exact ⟨s, (mem s).mpr (.inr (.inr (.inr (.inr h)))), rfl, covers⟩

/-- `insert` keeps the segments in order, and puts the new one in its place. -/
theorem insert_inserted {index index' : RangeIndex} {write : Nat} {memory : Bool}
    (o : Ordered index.segments) (h : index.insert range write memory = some index')
    (nonempty : range.isEmpty = false) :
    Inserted index.segments range write index'.segments := by
  have less : range.start < range.stop := by
    rw [ByteRange.isEmpty, decide_eq_false_iff_not] at nonempty
    exact Nat.lt_of_not_le nonempty
  have p := (Parts.of index.segments range).parted o
  rw [insert_segments h nonempty (Parts.of index.segments range)]
  exact p.inserted o less write (p.replaces o less)

/-! ## The last write of a byte -/

/-- The write that the index has for a byte. -/
def writeAt (index : RangeIndex) (i : Nat) : Option Nat :=
  (index.segments.find? fun s => s.covers i).map Segment.write

theorem writeAt_eq_some_iff {index : RangeIndex} (o : Ordered index.segments) {i w : Nat} :
    index.writeAt i = some w ↔ ∃ s ∈ index.segments, s.covers i = true ∧ s.write = w := by
  have unique : ∀ s ∈ index.segments, ∀ t ∈ index.segments, s.covers i = true →
      t.covers i = true → s = t := by
    intro s hs t ht cs ct
    obtain ⟨low, high⟩ := Segment.covers_iff.mp cs
    obtain ⟨low', high'⟩ := Segment.covers_iff.mp ct
    have apart : index.segments.Pairwise fun a b =>
        a = b ∨ a.stop ≤ b.start ∨ b.stop ≤ a.start :=
      o.ascending.imp fun order => .inr (.inl order)
    have order : s = t ∨ s.stop ≤ t.start ∨ t.stop ≤ s.start := by
      refine List.Pairwise.forall_of_forall_of_flip (fun _ _ => .inl rfl) apart ?_ hs ht
      exact o.ascending.imp fun order => .inr (.inr order)
    rcases order with same | before | after
    · exact same
    · omega
    · omega
  constructor
  · intro h
    obtain ⟨s, found, rfl⟩ := Option.map_eq_some_iff.mp h
    have covers := List.find?_some found
    exact ⟨s, List.mem_of_find?_eq_some found, covers, rfl⟩
  · rintro ⟨s, member, covers, rfl⟩
    cases found : index.segments.find? fun s => s.covers i with
    | none => exact absurd covers (List.find?_eq_none.mp found s member)
    | some t =>
        have covers' := List.find?_some found
        rw [writeAt, found, unique s member t (List.mem_of_find?_eq_some found) covers covers']
        rfl

theorem writeAt_eq_none_iff {index : RangeIndex} {i : Nat} :
    index.writeAt i = none ↔ ∀ s ∈ index.segments, s.covers i = false := by
  rw [writeAt, Option.map_eq_none_iff, List.find?_eq_none]
  exact forall₂_congr fun s _ => by rw [Bool.not_eq_true]

/-- An inserted range is written by the new write, and nothing else changes. -/
theorem writeAt_insert {index index' : RangeIndex} {write : Nat} {memory : Bool}
    (o : Ordered index.segments) (h : index.insert range write memory = some index') (i : Nat) :
    index'.writeAt i =
      if range.start ≤ i ∧ i < range.stop then some write else index.writeAt i := by
  cases nonempty : range.isEmpty with
  | true =>
      rw [insert, nonempty, if_pos rfl] at h
      obtain rfl := Option.some.inj h
      rw [ByteRange.isEmpty, decide_eq_true_eq] at nonempty
      rw [if_neg (by omega)]
  | false =>
      have inserted := insert_inserted o h nonempty
      split
      · rename_i here
        exact (writeAt_eq_some_iff inserted.ordered).mpr
          ⟨_, inserted.new, Segment.covers_iff.mpr here, rfl⟩
      · rename_i outside
        refine Option.ext fun w => ?_
        rw [writeAt_eq_some_iff inserted.ordered, writeAt_eq_some_iff o]
        constructor
        · rintro ⟨t, member, covers, rfl⟩
          obtain ⟨lower, upper⟩ := Segment.covers_iff.mp covers
          rcases inserted.within t member with rfl | ⟨s, hs, same, start, stop, -⟩
          · exact absurd ⟨lower, upper⟩ outside
          · exact ⟨s, hs, Segment.covers_iff.mpr ⟨by omega, by omega⟩, same.symm⟩
        · rintro ⟨s, member, covers, rfl⟩
          obtain ⟨t, ht, same, covers'⟩ := inserted.kept s member i covers outside
          exact ⟨t, ht, covers', same⟩

/-- `insert` keeps the segments in order. -/
theorem insert_ordered {index index' : RangeIndex} {write : Nat} {memory : Bool}
    (o : Ordered index.segments) (h : index.insert range write memory = some index') :
    Ordered index'.segments := by
  cases nonempty : range.isEmpty with
  | true =>
      rw [insert, nonempty, if_pos rfl] at h
      exact Option.some.inj h ▸ o
  | false => exact (insert_inserted o h nonempty).ordered

/-! ## Queries -/

/-- A query of an ordered list returns its items that meet the range. -/
theorem intersecting_spec {α : Type} {items : List α} (bounds : α → ByteRange)
    (ordered : ∀ x ∈ items, (bounds x).start ≤ (bounds x).stop)
    (ascending : items.Pairwise fun x y => (bounds x).stop ≤ (bounds y).start)
    (range : ByteRange) :
    (intersecting items range bounds).Sublist items ∧
      (∀ x ∈ intersecting items range bounds,
        (bounds x).start < range.stop ∧ range.start < (bounds x).stop) ∧
      ∀ x ∈ items, ∀ i, (bounds x).start ≤ i → i < (bounds x).stop → range.start ≤ i →
        i < range.stop → x ∈ intersecting items range bounds := by
  rw [intersecting]
  split
  · rename_i empty
    rw [ByteRange.isEmpty, decide_eq_true_eq] at empty
    refine ⟨List.nil_sublist _, fun x member => ?_, fun x _ i _ _ _ _ => ?_⟩
    · cases member
    · omega
  simp only [take_partitionPoint, drop_partitionPoint]
  have rest : ∀ x ∈ items.dropWhile fun x => decide ((bounds x).stop ≤ range.start),
      decide ((bounds x).stop ≤ range.start) = false := by
    refine not_of_mem_dropWhile ascending fun x _ y hy order fails => ?_
    have := ordered y hy
    simp only [decide_eq_false_iff_not] at fails ⊢
    omega
  have sub : (items.dropWhile fun x => decide ((bounds x).stop ≤ range.start)).Sublist items :=
    List.dropWhile_sublist _
  have last : ∀ x ∈ (items.dropWhile fun x => decide ((bounds x).stop ≤ range.start)).dropWhile
      fun x => decide ((bounds x).start < range.stop),
      decide ((bounds x).start < range.stop) = false := by
    refine not_of_mem_dropWhile (ascending.sublist sub) fun x hx y _ order fails => ?_
    have := ordered x (sub.subset hx)
    simp only [decide_eq_false_iff_not] at fails ⊢
    omega
  refine ⟨(List.takeWhile_sublist _).trans sub, fun x member => ?_, fun x member i low high a b => ?_⟩
  · have starts := List.mem_takeWhile_imp member
    have stops := rest x ((List.takeWhile_sublist _).subset member)
    simp only [decide_eq_true_eq, decide_eq_false_iff_not] at starts stops
    omega
  · -- An item that meets the range is neither before nor after the ones returned.
    rw [← List.takeWhile_append_dropWhile (p := fun x => decide ((bounds x).stop ≤ range.start))
      (l := items)] at member
    rcases List.mem_append.mp member with before | after
    · have := List.mem_takeWhile_imp before
      simp only [decide_eq_true_eq] at this
      omega
    rw [← List.takeWhile_append_dropWhile (p := fun x => decide ((bounds x).start < range.stop))
      (l := items.dropWhile _)] at after
    rcases List.mem_append.mp after with here | later
    · exact here
    · have := last x later
      simp only [decide_eq_false_iff_not] at this
      omega

end RangeIndex

end Sgfx.Ranges
