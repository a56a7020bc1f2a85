import Sgfx.Buffers.Updates

/-!
# What a delta covers

The intervals of an update are merged in a sorted list, with the aligned form of each
range that is added.  As long as the list stays sorted, merging loses no byte: what an
interval or the new range had is in an interval afterwards, and a list that ran out of
room covers everything.

## Main Definitions

* `BufferIntervals.Ordered`, `BufferIntervals.Covers`
* `BufferUpdate.Ordered`, `BufferUpdate.Covers`

## Main Results

* `BufferIntervals.includeRange_ordered`, `BufferIntervals.includeRange_covers`
* `BufferUpdate.includeRange_covers`, `BufferUpdate.mergePrevious_spec`
-/

namespace Sgfx

open Ranges

/-- A byte of a range. -/
def ByteRange.Has (range : ByteRange) (i : Nat) : Prop := range.start ≤ i ∧ i < range.stop

namespace BufferIntervals

variable {N ALIGN : Nat} {intervals : BufferIntervals N ALIGN} {range : ByteRange} {i : Nat}

/-- Intervals that are not empty, with a gap between any two. -/
structure Ordered (intervals : BufferIntervals N ALIGN) : Prop where
  nonempty : ∀ r ∈ intervals.ranges, r.start < r.stop
  ascending : intervals.ranges.Pairwise fun r s => r.stop < s.start

/-- A byte that some interval has; the empty list has every byte. -/
def Covers (intervals : BufferIntervals N ALIGN) (i : Nat) : Prop :=
  intervals.ranges = [] ∨ ∃ r ∈ intervals.ranges, r.Has i

theorem Ordered.nil : Ordered (⟨[]⟩ : BufferIntervals N ALIGN) where
  nonempty _ member := (List.not_mem_nil member).elim
  ascending := .nil

/-! ## Aligning -/

theorem aligned_has (positive : 0 < ALIGN) {r : ByteRange} (h : aligned ALIGN range = some r)
    (inside : range.Has i) : r.Has i := by
  rw [aligned] at h
  split at h
  · obtain ⟨stop, hstop, rfl⟩ := Option.map_eq_some_iff.mp h
    rw [checkedAddUsize] at hstop
    split at hstop
    · obtain rfl := Option.some.inj hstop
      refine ⟨Nat.le_trans (Nat.div_mul_le_self ..) inside.1, ?_⟩
      have := Nat.div_add_mod (range.stop + (ALIGN - 1)) ALIGN
      have := Nat.mod_lt (range.stop + (ALIGN - 1)) positive
      have := Nat.mul_comm ALIGN ((range.stop + (ALIGN - 1)) / ALIGN)
      show i < (range.stop + (ALIGN - 1)) / ALIGN * ALIGN
      have := inside.2
      omega
    · cases hstop
  · cases h

theorem aligned_nonempty (positive : 0 < ALIGN) {r : ByteRange}
    (h : aligned ALIGN range = some r) : r.start < r.stop := by
  have inside : range.start < range.stop := by
    rw [aligned] at h
    split at h
    · assumption
    · cases h
  have has := aligned_has positive h ⟨Nat.le_refl _, inside⟩
  exact Nat.lt_of_le_of_lt has.1 has.2

/-! ## Making intervals -/

theorem new_ordered (positive : 0 < ALIGN) (memory : Bool) (range : ByteRange) :
    (new memory range : BufferIntervals N ALIGN).Ordered := by
  rw [new]
  split
  · cases h : aligned ALIGN range with
    | none => exact .nil
    | some r =>
        refine ⟨fun s member => ?_, List.pairwise_singleton ..⟩
        obtain rfl := List.mem_singleton.mp member
        exact aligned_nonempty positive h
  · exact .nil

theorem new_covers (positive : 0 < ALIGN) (memory : Bool) (h : range.Has i) :
    (new memory range : BufferIntervals N ALIGN).Covers i := by
  rw [new]
  split
  · cases found : aligned ALIGN range with
    | none => exact .inl rfl
    | some r => exact .inr ⟨r, List.mem_singleton_self r, aligned_has positive found h⟩
  · exact .inl rfl

theorem Ordered.clone (o : intervals.Ordered) (memory : Bool) :
    (BufferIntervals.clone memory intervals).Ordered := by
  rw [BufferIntervals.clone]
  split
  · exact o
  · exact .nil

theorem Covers.clone (h : intervals.Covers i) (memory : Bool) :
    (BufferIntervals.clone memory intervals).Covers i := by
  rw [BufferIntervals.clone]
  split
  · exact h
  · exact .inl rfl

/-! ## Adding a range -/

/-- Where an aligned range goes in a sorted list: after `low`, in the place of `middle`,
and before `high`. -/
structure Placed (intervals : BufferIntervals N ALIGN) (r : ByteRange)
    (low middle high : List ByteRange) : Prop where
  joined : intervals.ranges = low ++ (middle ++ high)
  low_stop : ∀ s ∈ low, s.stop < r.start
  high_start : ∀ s ∈ high, r.stop < s.start

/-- What adding an aligned range comes to.  The middle is what the range touches. -/
theorem includeRange_cases (o : intervals.Ordered) (occupied : intervals.ranges ≠ []) {r : ByteRange}
    (h : aligned ALIGN range = some r) :
    ∃ low middle high, intervals.Placed r low middle high ∧
      (∀ s ∈ middle, r.start ≤ s.stop ∧ s.start ≤ r.stop) ∧
      ((intervals.includeRange range).ranges = [] ∨
        (middle = [] ∧ intervals.ranges.length ≠ N ∧
          (intervals.includeRange range).ranges = low ++ r :: high) ∨
        ∃ first last, middle.head? = some first ∧ middle.getLast? = some last ∧
          (intervals.includeRange range).ranges =
            low ++ ⟨min r.start first.start, max r.stop last.stop⟩ :: high) := by
  obtain ⟨low, hlow⟩ : ∃ low, low = intervals.ranges.takeWhile
    fun old => decide (old.stop < r.start) := ⟨_, rfl⟩
  obtain ⟨rest, hrest⟩ : ∃ rest, rest = intervals.ranges.dropWhile
    fun old => decide (old.stop < r.start) := ⟨_, rfl⟩
  obtain ⟨middle, hmiddle⟩ : ∃ middle, middle = rest.takeWhile
    fun old => decide (old.start ≤ r.stop) := ⟨_, rfl⟩
  obtain ⟨high, hhigh⟩ : ∃ high, high = rest.dropWhile
    fun old => decide (old.start ≤ r.stop) := ⟨_, rfl⟩
  have rest_eq : rest = middle ++ high := by rw [hmiddle, hhigh, List.takeWhile_append_dropWhile]
  have joined : intervals.ranges = low ++ (middle ++ high) := by
    rw [← rest_eq, hlow, hrest, List.takeWhile_append_dropWhile]
  have placed : intervals.Placed r low middle high := by
    refine ⟨joined, fun s member => ?_, fun s member => ?_⟩
    · rw [hlow] at member
      simpa using List.mem_takeWhile_imp member
    · have sub : rest.Sublist intervals.ranges := hrest ▸ List.dropWhile_sublist _
      have fails := not_of_mem_dropWhile (o.ascending.sublist sub)
        (p := fun old => decide (old.start ≤ r.stop)) (fun x hx y _ order failed => by
          have := o.nonempty x (sub.subset hx)
          simp only [decide_eq_false_iff_not] at failed ⊢
          omega) s (hhigh ▸ member)
      simpa using fails
  have touching : ∀ s ∈ middle, r.start ≤ s.stop ∧ s.start ≤ r.stop := by
    intro s member
    have started : s.start ≤ r.stop := by
      rw [hmiddle] at member
      simpa using List.mem_takeWhile_imp member
    have fails := not_of_mem_dropWhile o.ascending
      (p := fun old => decide (old.stop < r.start)) (fun x _ y hy order failed => by
        have := o.nonempty y hy
        simp only [decide_eq_false_iff_not] at failed ⊢
        omega) s (by
          rw [← hrest, rest_eq]
          exact List.mem_append_left _ member)
    have ended : r.start ≤ s.stop := by simpa using fails
    exact ⟨ended, started⟩
  refine ⟨low, middle, high, placed, touching, ?_⟩
  have first_eq : partitionPoint (fun old => decide (old.stop < r.start)) intervals.ranges =
      low.length := by rw [hlow, partitionPoint]
  have drop_eq : intervals.ranges.drop low.length = middle ++ high := by
    rw [joined, List.drop_left]
  have count_eq : partitionPoint (fun old => decide (old.start ≤ r.stop)) (middle ++ high) =
      middle.length := by rw [← rest_eq, partitionPoint, hmiddle]
  have take_eq : intervals.ranges.take low.length = low := by rw [joined, List.take_left]
  rw [includeRange, if_neg (by simpa using occupied), h]
  simp only [first_eq, drop_eq, count_eq, take_eq]
  cases middle with
  | nil =>
      rw [if_neg (by simp)]
      split
      · exact .inl rfl
      · rename_i room
        exact .inr (.inl ⟨rfl, room, rfl⟩)
  | cons first others =>
      rw [if_pos (by simp)]
      refine .inr (.inr ⟨first, (first :: others).getLast (List.cons_ne_nil _ _), rfl,
        List.getLast?_eq_some_getLast _, ?_⟩)
      have head : intervals.ranges[low.length]? = some first := by
        rw [joined, List.getElem?_append_right (Nat.le_refl _), Nat.sub_self]
        rfl
      have last : intervals.ranges[low.length + (first :: others).length - 1]? =
          some ((first :: others).getLast (List.cons_ne_nil _ _)) := by
        rw [joined, List.getElem?_append_right (by simp only [List.length_cons]; omega),
          List.getElem?_append_left (by simp only [List.length_cons]; omega),
          ← List.getLast?_eq_some_getLast, List.getLast?_eq_getElem?]
        congr 1
        simp only [List.length_cons]
        omega
      have high_eq : intervals.ranges.drop (low.length + (first :: others).length) = high := by
        rw [← List.drop_drop, drop_eq, List.drop_left]
      rw [head, last, high_eq]
      rfl

variable {low middle high : List ByteRange} {r : ByteRange}

theorem Placed.mem (p : intervals.Placed r low middle high) {s : ByteRange}
    (member : s ∈ low ∨ s ∈ middle ∨ s ∈ high) : s ∈ intervals.ranges := by
  rw [p.joined, List.mem_append, List.mem_append]
  exact member

/-- A range that takes the place of the middle keeps the list sorted. -/
theorem Placed.ordered (p : intervals.Placed r low middle high) (o : intervals.Ordered)
    {s : ByteRange} (nonempty : s.start < s.stop) (before : ∀ x ∈ low, x.stop < s.start)
    (after : ∀ x ∈ high, s.stop < x.start) :
    Ordered (⟨low ++ s :: high⟩ : BufferIntervals N ALIGN) where
  nonempty x member := by
    rcases List.mem_append.mp member with left | right
    · exact o.nonempty x (p.mem (.inl left))
    · rcases List.mem_cons.mp right with rfl | right
      · exact nonempty
      · exact o.nonempty x (p.mem (.inr (.inr right)))
  ascending := by
    have whole := o.ascending
    rw [p.joined, List.pairwise_append, List.pairwise_append] at whole
    obtain ⟨left, ⟨_, right, _⟩, cross⟩ := whole
    refine List.pairwise_append.mpr ⟨left, List.pairwise_cons.mpr ⟨after, right⟩, ?_⟩
    intro x hx y hy
    rcases List.mem_cons.mp hy with rfl | hy
    · exact before x hx
    · exact cross x hx y (List.mem_append_right _ hy)

/-- The first and the last of the middle bound what is in it. -/
theorem Placed.middle_bounds (p : intervals.Placed r low middle high) (o : intervals.Ordered)
    {first last : ByteRange} (hfirst : middle.head? = some first)
    (hlast : middle.getLast? = some last) :
    ∀ s ∈ middle, first.start ≤ s.start ∧ s.stop ≤ last.stop := by
  have whole := o.ascending
  rw [p.joined, List.pairwise_append, List.pairwise_append] at whole
  have sorted := whole.2.1.1
  have nonempty : ∀ s ∈ middle, s.start < s.stop := fun s member =>
    o.nonempty s (p.mem (.inr (.inl member)))
  intro s member
  constructor
  · obtain ⟨others, rfl⟩ := List.head?_eq_some_iff.mp hfirst
    rcases List.mem_cons.mp member with rfl | later
    · exact Nat.le_refl _
    · have := (List.pairwise_cons.mp sorted).1 s later
      have := nonempty first List.mem_cons_self
      omega
  · obtain ⟨others, rfl⟩ := List.getLast?_eq_some_iff.mp hlast
    rcases List.mem_append.mp member with earlier | here
    · have := (List.pairwise_append.mp sorted).2.2 s earlier last (List.mem_singleton_self _)
      have := nonempty last (List.mem_append_right _ (List.mem_singleton_self _))
      omega
    · obtain rfl := List.mem_singleton.mp here
      exact Nat.le_refl _

theorem includeRange_ordered (positive : 0 < ALIGN) (o : intervals.Ordered) (range : ByteRange) :
    (intervals.includeRange range).Ordered := by
  by_cases empty : intervals.ranges = []
  · rw [includeRange, if_pos (by rw [empty]; rfl)]
    exact o
  cases h : aligned ALIGN range with
  | none =>
      rw [includeRange, if_neg (by simpa using empty), h]
      exact .nil
  | some r =>
      have nonempty := aligned_nonempty positive h
      obtain ⟨low, middle, high, p, -, full | ⟨-, -, added⟩ | ⟨first, last, hfirst, hlast, merged⟩⟩ :=
        includeRange_cases o empty h
      · have same : intervals.includeRange range = ⟨[]⟩ := congrArg BufferIntervals.mk full
        exact same ▸ .nil
      · have same : intervals.includeRange range = ⟨low ++ r :: high⟩ :=
          congrArg BufferIntervals.mk added
        exact same ▸ p.ordered o nonempty p.low_stop p.high_start
      · have same : intervals.includeRange range =
            ⟨low ++ ⟨min r.start first.start, max r.stop last.stop⟩ :: high⟩ :=
          congrArg BufferIntervals.mk merged
        have whole := o.ascending
        rw [p.joined, List.pairwise_append, List.pairwise_append] at whole
        obtain ⟨-, ⟨-, -, above⟩, below⟩ := whole
        have first_mem := List.mem_of_head? hfirst
        have last_mem := List.mem_of_getLast? hlast
        refine same ▸ p.ordered o ?_ ?_ ?_
        · show min r.start first.start < max r.stop last.stop
          omega
        · intro x hx
          have := p.low_stop x hx
          have := below x hx first (List.mem_append_left _ first_mem)
          show x.stop < min r.start first.start
          omega
        · intro x hx
          have := p.high_start x hx
          have := above last last_mem x hx
          show max r.stop last.stop < x.start
          omega

/-- Adding a range loses no byte, and covers the range. -/
theorem includeRange_covers (positive : 0 < ALIGN) (o : intervals.Ordered)
    (h : intervals.Covers i ∨ range.Has i) : (intervals.includeRange range).Covers i := by
  by_cases empty : intervals.ranges = []
  · rw [includeRange, if_pos (by rw [empty]; rfl)]
    exact .inl empty
  cases found : aligned ALIGN range with
  | none =>
      rw [includeRange, if_neg (by simpa using empty), found]
      exact .inl rfl
  | some r =>
      have h : (∃ s ∈ intervals.ranges, s.Has i) ∨ r.Has i :=
        h.imp (fun covers => covers.resolve_left empty) (aligned_has positive found)
      obtain ⟨low, middle, high, p, -, full | ⟨none, -, added⟩ | ⟨first, last, hfirst, hlast, merged⟩⟩ :=
        includeRange_cases o empty found
      · exact .inl full
      · subst none
        rw [Covers, added]
        rcases h with ⟨s, member, has⟩ | has
        · rw [p.joined, List.nil_append, List.mem_append] at member
          refine .inr ⟨s, ?_, has⟩
          rw [List.mem_append, List.mem_cons]
          exact member.imp id .inr
        · exact .inr ⟨r, List.mem_append_right _ List.mem_cons_self, has⟩
      · rw [Covers, merged]
        have bounds := p.middle_bounds o hfirst hlast
        rcases h with ⟨s, member, has⟩ | has
        · rw [p.joined, List.mem_append, List.mem_append] at member
          rcases member with member | member | member
          · exact .inr ⟨s, List.mem_append_left _ member, has⟩
          · obtain ⟨lower, upper⟩ := bounds s member
            refine .inr ⟨_, List.mem_append_right _ List.mem_cons_self, ?_, ?_⟩
            · have := has.1
              show min r.start first.start ≤ i
              omega
            · have := has.2
              show i < max r.stop last.stop
              omega
          · exact .inr ⟨s, List.mem_append_right _ (List.mem_cons_of_mem _ member), has⟩
        · refine .inr ⟨_, List.mem_append_right _ List.mem_cons_self, ?_, ?_⟩
          · exact Nat.le_trans (Nat.min_le_left ..) has.1
          · exact Nat.lt_of_lt_of_le has.2 (Nat.le_max_left ..)

/-- Adding ranges one after another. -/
theorem foldl_includeRange (positive : 0 < ALIGN) (ranges : List ByteRange)
    (o : intervals.Ordered) :
    (ranges.foldl includeRange intervals).Ordered ∧
      ∀ i, intervals.Covers i ∨ (∃ r ∈ ranges, r.Has i) →
        (ranges.foldl includeRange intervals).Covers i := by
  induction ranges generalizing intervals with
  | nil =>
      refine ⟨o, fun i h => h.resolve_right ?_⟩
      rintro ⟨r, member, -⟩
      exact List.not_mem_nil member
  | cons range rest ih =>
      obtain ⟨ordered, covers⟩ := ih (includeRange_ordered positive o range)
      refine ⟨ordered, fun i h => covers i ?_⟩
      rcases h with old | ⟨r, member, has⟩
      · exact .inl (includeRange_covers positive o (.inl old))
      · rcases List.mem_cons.mp member with rfl | later
        · exact .inl (includeRange_covers positive o (.inr has))
        · exact .inr ⟨r, later, has⟩

end BufferIntervals

/-! ## Updates -/

namespace BufferUpdate

variable {N ALIGN : Nat} {update previous : BufferUpdate N ALIGN} {range : ByteRange} {i : Nat}

/-- An update with sorted intervals. -/
def Ordered (update : BufferUpdate N ALIGN) : Prop :=
  ∃ intervals, update.intervals = some intervals ∧ intervals.Ordered

/-- A byte that an update names: one of its intervals has it, or, when there are no
intervals, the range does. -/
def Covers (update : BufferUpdate N ALIGN) (i : Nat) : Prop :=
  match update.intervals with
  | some intervals => intervals.Covers i
  | none => update.range.Has i

theorem covers_iff {intervals : BufferIntervals N ALIGN}
    (found : update.intervals = some intervals) : update.Covers i ↔ intervals.Covers i := by
  rw [Covers, found]

theorem sparse_ordered (positive : 0 < ALIGN) (memory : Bool) (revision : UInt64)
    (range : ByteRange) : (sparse memory revision range : BufferUpdate N ALIGN).Ordered :=
  ⟨_, rfl, BufferIntervals.new_ordered positive memory range⟩

theorem sparse_covers (positive : 0 < ALIGN) (memory : Bool) (revision : UInt64)
    (h : range.Has i) : (sparse memory revision range : BufferUpdate N ALIGN).Covers i :=
  BufferIntervals.new_covers positive memory h

theorem Ordered.clone (o : update.Ordered) (memory : Bool) :
    (BufferUpdate.clone memory update).Ordered := by
  obtain ⟨intervals, found, sorted⟩ := o
  exact ⟨_, congrArg (Option.map _) found, sorted.clone memory⟩

theorem Covers.clone (o : update.Ordered) (h : update.Covers i) (memory : Bool) :
    (BufferUpdate.clone memory update).Covers i := by
  obtain ⟨intervals, found, -⟩ := o
  have cloned : (BufferUpdate.clone memory update).intervals = some (intervals.clone memory) :=
    congrArg (Option.map _) found
  exact (covers_iff cloned).mpr (((covers_iff found).mp h).clone memory)

theorem includeRange_ordered (positive : 0 < ALIGN) (o : update.Ordered) (range : ByteRange) :
    (update.includeRange range).Ordered := by
  obtain ⟨intervals, found, sorted⟩ := o
  exact ⟨_, congrArg (Option.map _) found,
    BufferIntervals.includeRange_ordered positive sorted range⟩

theorem includeRange_covers (positive : 0 < ALIGN) (o : update.Ordered)
    (h : update.Covers i ∨ range.Has i) : (update.includeRange range).Covers i := by
  obtain ⟨intervals, found, sorted⟩ := o
  have added : (update.includeRange range).intervals = some (intervals.includeRange range) :=
    congrArg (Option.map _) found
  exact (covers_iff added).mpr (BufferIntervals.includeRange_covers positive sorted
    (h.imp (covers_iff found).mp id))

/-- Merging with an earlier update keeps the intervals sorted, and loses no byte of
either. -/
theorem mergePrevious_spec (positive : 0 < ALIGN) (o : update.Ordered) (before : previous.Ordered) :
    (update.mergePrevious previous).Ordered ∧
      ∀ i, update.Covers i ∨ previous.Covers i → (update.mergePrevious previous).Covers i := by
  obtain ⟨intervals, found, sorted⟩ := o
  obtain ⟨earlier, found', -⟩ := before
  by_cases full : earlier.ranges = []
  · have merged : (update.mergePrevious previous).intervals = some ⟨[]⟩ := by
      simp [mergePrevious, found', full]
    exact ⟨⟨_, merged, .nil⟩, fun i _ => (covers_iff merged).mpr (.inl rfl)⟩
  · have merged : (update.mergePrevious previous).intervals =
        some (earlier.ranges.foldl BufferIntervals.includeRange intervals) := by
      simp [mergePrevious, found', found, full]
    obtain ⟨ordered, covers⟩ := BufferIntervals.foldl_includeRange positive earlier.ranges sorted
    refine ⟨⟨_, merged, ordered⟩, fun i h => (covers_iff merged).mpr (covers i ?_)⟩
    rw [covers_iff found, covers_iff found'] at h
    exact h.imp id fun has => has.resolve_left full

end BufferUpdate

end Sgfx
