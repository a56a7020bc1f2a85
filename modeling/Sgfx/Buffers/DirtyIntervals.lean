import Sgfx.Buffers.Coverage

/-!
# Histories of updates

An update is made from a range, with intervals or as an envelope alone, and then grows by
more ranges and by earlier updates.  Whatever its history, its intervals are few, aligned
and apart, every block of them is one that a range touched, and a list that was given up
stays given up.

## Main Definitions

* `BufferHistory`, with `build`, `included`, `counted`
* `BufferIntervals.Tracks`, `BufferUpdate.Sound` — the invariant
* `BufferHistory.Continues`

## Main Results

* `BufferIntervals.includeRange_tracks`
* `BufferHistory.build_sound`
* `mergePrevious_envelope_gap`
-/

namespace Sgfx

/-- Some range has a byte. -/
def Touched (ranges : List ByteRange) (i : Nat) : Prop := ∃ r ∈ ranges, r.Has i

theorem touched_append {first second : List ByteRange} {i : Nat} :
    Touched (first ++ second) i ↔ Touched first i ∨ Touched second i := by
  simp only [Touched, List.mem_append, or_and_right, exists_or]

theorem touched_singleton {range : ByteRange} {i : Nat} : Touched [range] i ↔ range.Has i := by
  simp only [Touched, List.mem_singleton, exists_eq_left]

namespace BufferIntervals

variable {N ALIGN : Nat} {intervals : BufferIntervals N ALIGN} {range r : ByteRange}
  {touched more : Nat → Prop}

/-- A list of intervals within its capacity, aligned and apart, each of whose blocks has a
byte that was touched. -/
structure Tracks (intervals : BufferIntervals N ALIGN) (touched : Nat → Prop) : Prop where
  capacity : intervals.ranges.length ≤ N
  ordered : intervals.Ordered
  aligned : ∀ r ∈ intervals.ranges, ALIGN ∣ r.start ∧ ALIGN ∣ r.stop
  needed : ∀ r ∈ intervals.ranges, ∀ block, r.Has (block * ALIGN) →
    ∃ i, i / ALIGN = block ∧ touched i

theorem Tracks.nil : (⟨[]⟩ : BufferIntervals N ALIGN).Tracks touched where
  capacity := Nat.zero_le _
  ordered := .nil
  aligned _ member := absurd member List.not_mem_nil
  needed _ member := absurd member List.not_mem_nil

theorem Tracks.mono (h : intervals.Tracks touched) (imp : ∀ i, touched i → more i) :
    intervals.Tracks more where
  capacity := h.capacity
  ordered := h.ordered
  aligned := h.aligned
  needed r member block has := by
    obtain ⟨i, block_eq, hi⟩ := h.needed r member block has
    exact ⟨i, block_eq, imp i hi⟩

theorem Tracks.clone (h : intervals.Tracks touched) (memory : Bool) :
    (BufferIntervals.clone memory intervals).Tracks touched := by
  rw [BufferIntervals.clone]
  split
  · exact h
  · exact .nil

/-! ## Blocks -/

theorem aligned_dvd (h : BufferIntervals.aligned ALIGN range = some r) :
    ALIGN ∣ r.start ∧ ALIGN ∣ r.stop := by
  rw [BufferIntervals.aligned] at h
  split at h
  · obtain ⟨stop, -, rfl⟩ := Option.map_eq_some_iff.mp h
    exact ⟨Nat.dvd_mul_left .., Nat.dvd_mul_left ..⟩
  · cases h

/-- Every block of an aligned range has a byte of the range. -/
theorem aligned_needed (positive : 0 < ALIGN) (h : BufferIntervals.aligned ALIGN range = some r)
    {block : Nat} (has : r.Has (block * ALIGN)) : ∃ i, i / ALIGN = block ∧ range.Has i := by
  rw [BufferIntervals.aligned] at h
  split at h
  · rename_i nonempty
    obtain ⟨stop, hstop, rfl⟩ := Option.map_eq_some_iff.mp h
    rw [checkedAddUsize] at hstop
    split at hstop
    · obtain rfl := Option.some.inj hstop
      -- The block starts before the range ends, and ends after it starts.
      have first : range.start / ALIGN ≤ block := Nat.le_of_mul_le_mul_right has.1 positive
      have last : block < (range.stop + (ALIGN - 1)) / ALIGN :=
        Nat.lt_of_mul_lt_mul_right has.2
      have ends : range.start < (block + 1) * ALIGN :=
        (Nat.div_lt_iff_lt_mul positive).mp (Nat.lt_succ_of_le first)
      have starts : (block + 1) * ALIGN ≤ range.stop + (ALIGN - 1) :=
        (Nat.le_div_iff_mul_le positive).mp last
      rw [Nat.succ_mul] at ends starts
      refine ⟨max range.start (block * ALIGN), ?_, ?_, ?_⟩
      · rw [Nat.div_eq_iff positive]
        omega
      · exact Nat.le_max_left ..
      · omega
    · cases hstop
  · cases h

theorem new_tracks (room : 0 < N) (positive : 0 < ALIGN) (memory : Bool) (range : ByteRange) :
    (new memory range : BufferIntervals N ALIGN).Tracks range.Has := by
  rw [new]
  split
  · cases h : BufferIntervals.aligned ALIGN range with
    | none => exact .nil
    | some r =>
        refine ⟨room, ?_, fun s member => ?_, fun s member block has => ?_⟩
        · have ordered := new_ordered (N := N) positive true range
          rw [new, if_pos rfl, h] at ordered
          exact ordered
        · obtain rfl := List.mem_singleton.mp member
          exact aligned_dvd h
        · obtain rfl := List.mem_singleton.mp member
          exact aligned_needed positive h has
  · exact .nil

/-! ## Adding a range -/

/-- An interval whose blocks are needed takes the place of the middle. -/
theorem Tracks.replaced {low middle high : List ByteRange} {s : ByteRange}
    (t : intervals.Tracks touched) (p : intervals.Placed r low middle high)
    (room : low.length + 1 + high.length ≤ N)
    (ordered : Ordered (⟨low ++ s :: high⟩ : BufferIntervals N ALIGN))
    (multiple : ALIGN ∣ s.start ∧ ALIGN ∣ s.stop) (imp : ∀ i, touched i → more i)
    (needed : ∀ block, s.Has (block * ALIGN) → ∃ i, i / ALIGN = block ∧ more i) :
    Tracks (⟨low ++ s :: high⟩ : BufferIntervals N ALIGN) more := by
  have parts : ∀ x ∈ low ++ s :: high, x ∈ intervals.ranges ∨ x = s := by
    intro x member
    rcases List.mem_append.mp member with left | right
    · exact .inl (p.mem (.inl left))
    rcases List.mem_cons.mp right with rfl | right
    · exact .inr rfl
    · exact .inl (p.mem (.inr (.inr right)))
  refine ⟨?_, ordered, fun x member => ?_, fun x member => ?_⟩
  · rw [List.length_append, List.length_cons]
    omega
  · rcases parts x member with old | rfl
    · exact t.aligned x old
    · exact multiple
  · rcases parts x member with old | rfl
    · exact (t.mono imp).needed x old
    · exact needed

/-- Adding a range keeps the list, and needs only the blocks of the range. -/
theorem includeRange_tracks (positive : 0 < ALIGN) (t : intervals.Tracks touched)
    (range : ByteRange) :
    (intervals.includeRange range).Tracks fun i => touched i ∨ range.Has i := by
  by_cases empty : intervals.ranges = []
  · rw [includeRange, if_pos (by rw [empty]; rfl)]
    exact t.mono fun i => .inl
  cases found : BufferIntervals.aligned ALIGN range with
  | none =>
      rw [includeRange, if_neg (by simpa using empty), found]
      exact .nil
  | some r =>
      have ordered := includeRange_ordered positive t.ordered range
      have multiple := aligned_dvd found
      have within := t.capacity
      have added_needed : ∀ block, r.Has (block * ALIGN) →
          ∃ i, i / ALIGN = block ∧ (touched i ∨ range.Has i) := by
        intro block has
        obtain ⟨i, block_eq, hi⟩ := aligned_needed positive found has
        exact ⟨i, block_eq, .inr hi⟩
      obtain ⟨low, middle, high, p, touching, full | ⟨none, room, added⟩ |
        ⟨first, last, hfirst, hlast, merged⟩⟩ := includeRange_cases t.ordered empty found
      · have same : intervals.includeRange range = ⟨[]⟩ := congrArg BufferIntervals.mk full
        exact same ▸ .nil
      · have same : intervals.includeRange range = ⟨low ++ r :: high⟩ :=
          congrArg BufferIntervals.mk added
        subst none
        rw [p.joined, List.length_append, List.length_append, List.length_nil] at within room
        rw [same] at ordered ⊢
        exact t.replaced p (by omega) ordered multiple (fun i => .inl) added_needed
      · have same : intervals.includeRange range =
            ⟨low ++ ⟨min r.start first.start, max r.stop last.stop⟩ :: high⟩ :=
          congrArg BufferIntervals.mk merged
        have first_mem := List.mem_of_head? hfirst
        have last_mem := List.mem_of_getLast? hlast
        have first_old := p.mem (.inr (.inl first_mem))
        have last_old := p.mem (.inr (.inl last_mem))
        have occupied := List.length_pos_of_mem first_mem
        rw [p.joined, List.length_append, List.length_append] at within
        rw [same] at ordered ⊢
        refine t.replaced p (by omega) ordered ⟨?_, ?_⟩ (fun i => .inl) fun block has => ?_
        · rcases Nat.le_total r.start first.start with h | h
          · rw [Nat.min_eq_left h]
            exact multiple.1
          · rw [Nat.min_eq_right h]
            exact (t.aligned first first_old).1
        · rcases Nat.le_total r.stop last.stop with h | h
          · rw [Nat.max_eq_right h]
            exact (t.aligned last last_old).2
          · rw [Nat.max_eq_left h]
            exact multiple.2
        · -- A block is left of the range in the first interval, in the range, or right of it
          -- in the last.
          have starts : min r.start first.start ≤ block * ALIGN := has.1
          have stops : block * ALIGN < max r.stop last.stop := has.2
          have touches_first := (touching first first_mem).1
          have touches_last := (touching last last_mem).2
          by_cases left : block * ALIGN < r.start
          · exact (t.mono fun i => Or.inl).needed first first_old block ⟨by omega, by omega⟩
          by_cases right : r.stop ≤ block * ALIGN
          · exact (t.mono fun i => Or.inl).needed last last_old block ⟨by omega, by omega⟩
          · exact added_needed block ⟨by omega, by omega⟩

/-- Adding the intervals of another list needs only what that list needs. -/
theorem foldl_includeRange_tracks (positive : 0 < ALIGN) {earlier : BufferIntervals N ALIGN}
    (t : intervals.Tracks touched) (e : earlier.Tracks more) :
    (earlier.ranges.foldl includeRange intervals).Tracks fun i => touched i ∨ more i := by
  -- The bytes of the other list are in blocks that it needs.
  have folded : ∀ (ranges : List ByteRange) (intervals : BufferIntervals N ALIGN)
      (touched : Nat → Prop), intervals.Tracks touched →
      (ranges.foldl includeRange intervals).Tracks fun i => touched i ∨ Touched ranges i := by
    intro ranges
    induction ranges with
    | nil =>
        intro intervals touched t
        exact t.mono fun i => .inl
    | cons range rest ih =>
        intro intervals touched t
        refine (ih _ _ (includeRange_tracks positive t range)).mono fun i => ?_
        rw [← List.singleton_append, touched_append, touched_singleton, or_assoc]
        exact id
  have all := folded earlier.ranges intervals touched t
  refine ⟨all.capacity, all.ordered, all.aligned, fun r member block has => ?_⟩
  obtain ⟨i, rfl, hi | ⟨s, hs, inside⟩⟩ := all.needed r member block has
  · exact ⟨i, rfl, .inl hi⟩
  · obtain ⟨first, last⟩ := e.aligned s hs
    have block_has : s.Has (i / ALIGN * ALIGN) := by
      obtain ⟨k, hk⟩ := first
      refine ⟨?_, Nat.lt_of_le_of_lt (Nat.div_mul_le_self ..) inside.2⟩
      rw [hk, Nat.mul_comm]
      apply Nat.mul_le_mul_right
      rw [Nat.le_div_iff_mul_le positive, Nat.mul_comm, ← hk]
      exact inside.1
    obtain ⟨j, block_eq, hj⟩ := e.needed s hs _ block_has
    exact ⟨j, block_eq, .inr hj⟩

end BufferIntervals

/-! ## Histories -/

/-- How an update came about: from a range, with intervals or without, by the operations. -/
inductive BufferHistory where
  | sparse (memory : Bool) (previousRevision : UInt64) (range : ByteRange)
  | envelope (previousRevision : UInt64) (range : ByteRange)
  | includeRange (history : BufferHistory) (range : ByteRange)
  | mergePrevious (history previous : BufferHistory)
  | clone (memory : Bool) (history : BufferHistory)

namespace BufferHistory

/-- The update that a history makes. -/
def build (N ALIGN : Nat) : BufferHistory → BufferUpdate N ALIGN
  | sparse memory revision range => .sparse memory revision range
  | envelope revision range => ⟨revision, range, none⟩
  | includeRange history range => (history.build N ALIGN).includeRange range
  | mergePrevious history previous => (history.build N ALIGN).mergePrevious (previous.build N ALIGN)
  | clone memory history => (history.build N ALIGN).clone memory

/-- The ranges that a history has included. -/
def included : BufferHistory → List ByteRange
  | sparse _ _ range => [range]
  | envelope _ range => [range]
  | includeRange history range => history.included ++ [range]
  | mergePrevious history previous => history.included ++ previous.included
  | clone _ history => history.included

/-- The same, where an earlier update without intervals counts with its envelope. -/
def counted (N ALIGN : Nat) : BufferHistory → List ByteRange
  | sparse _ _ range => [range]
  | envelope _ range => [range]
  | includeRange history range => history.counted N ALIGN ++ [range]
  | mergePrevious history previous =>
      history.counted N ALIGN ++
        if (previous.build N ALIGN).intervals.isNone then [(previous.build N ALIGN).range]
        else previous.counted N ALIGN
  | clone _ history => history.counted N ALIGN

/-- A later state of the same update, which may have been merged into another. -/
inductive Continues (history : BufferHistory) : BufferHistory → Prop where
  | refl : history.Continues history
  | includeRange {later : BufferHistory} (range : ByteRange) :
      history.Continues later → history.Continues (later.includeRange range)
  | mergePrevious {later : BufferHistory} (previous : BufferHistory) :
      history.Continues later → history.Continues (later.mergePrevious previous)
  | merged {later : BufferHistory} (next : BufferHistory) :
      history.Continues later → history.Continues (next.mergePrevious later)
  | clone {later : BufferHistory} (memory : Bool) :
      history.Continues later → history.Continues (later.clone memory)

end BufferHistory

namespace BufferUpdate

variable {N ALIGN : Nat} {update previous : BufferUpdate N ALIGN}
  {included included' counted counted' : List ByteRange}

/-- What an update says of the ranges it has included: the envelope has all their bytes,
and so do the intervals, unless there are none, with no block that is not counted. -/
structure Sound (update : BufferUpdate N ALIGN) (included counted : List ByteRange) : Prop where
  envelope : ∀ i, Touched included i → update.range.Has i
  tracks : ∀ intervals, update.intervals = some intervals → intervals.Tracks (Touched counted)
  covers : ∀ intervals, update.intervals = some intervals → ∀ i, Touched included i →
    intervals.Covers i

theorem has_join {a b : ByteRange} {i : Nat} (h : a.Has i ∨ b.Has i) : (a.join b).Has i := by
  rcases h with h | h
  · exact ⟨Nat.le_trans (Nat.min_le_left ..) h.1, Nat.lt_of_lt_of_le h.2 (Nat.le_max_left ..)⟩
  · exact ⟨Nat.le_trans (Nat.min_le_right ..) h.1, Nat.lt_of_lt_of_le h.2 (Nat.le_max_right ..)⟩

theorem sparse_sound (room : 0 < N) (positive : 0 < ALIGN) (memory : Bool) (revision : UInt64)
    (range : ByteRange) :
    (sparse memory revision range : BufferUpdate N ALIGN).Sound [range] [range] where
  envelope i h := touched_singleton.mp h
  tracks intervals found := by
    obtain rfl := Option.some.inj found
    exact (BufferIntervals.new_tracks room positive memory range).mono
      fun i => touched_singleton.mpr
  covers intervals found i h := by
    obtain rfl := Option.some.inj found
    exact BufferIntervals.new_covers positive memory (touched_singleton.mp h)

theorem Sound.clone (s : update.Sound included counted) (memory : Bool) :
    (update.clone memory).Sound included counted where
  envelope := s.envelope
  tracks intervals found := by
    obtain ⟨old, hold, rfl⟩ := Option.map_eq_some_iff.mp found
    exact (s.tracks old hold).clone memory
  covers intervals found i h := by
    obtain ⟨old, hold, rfl⟩ := Option.map_eq_some_iff.mp found
    exact (s.covers old hold i h).clone memory

theorem Sound.includeRange (positive : 0 < ALIGN) (s : update.Sound included counted)
    (range : ByteRange) :
    (update.includeRange range).Sound (included ++ [range]) (counted ++ [range]) where
  envelope i h := by
    rw [touched_append, touched_singleton] at h
    exact has_join (h.imp (s.envelope i) id)
  tracks intervals found := by
    obtain ⟨old, hold, rfl⟩ := Option.map_eq_some_iff.mp found
    refine (BufferIntervals.includeRange_tracks positive (s.tracks old hold) range).mono
      fun i h => ?_
    rw [touched_append, touched_singleton]
    exact h
  covers intervals found i h := by
    obtain ⟨old, hold, rfl⟩ := Option.map_eq_some_iff.mp found
    rw [touched_append, touched_singleton] at h
    exact BufferIntervals.includeRange_covers positive (s.tracks old hold).ordered
      (h.imp (s.covers old hold i) id)

/-- The three ways of merging intervals. -/
theorem mergePrevious_intervals (update previous : BufferUpdate N ALIGN) :
    (∃ earlier, previous.intervals = some earlier ∧ earlier.ranges = [] ∧
        (update.mergePrevious previous).intervals = some ⟨[]⟩) ∨
      (∃ earlier, previous.intervals = some earlier ∧ earlier.ranges ≠ [] ∧
        (update.mergePrevious previous).intervals =
          update.intervals.map (earlier.ranges.foldl BufferIntervals.includeRange)) ∨
      (previous.intervals = none ∧ (update.mergePrevious previous).intervals =
        update.intervals.map fun intervals => intervals.includeRange previous.range) := by
  cases found : previous.intervals with
  | none =>
      refine .inr (.inr ⟨rfl, ?_⟩)
      rw [mergePrevious, found]
      rfl
  | some earlier =>
      by_cases full : earlier.ranges = []
      · refine .inl ⟨earlier, rfl, full, ?_⟩
        simp [mergePrevious, found, full]
      · refine .inr (.inl ⟨earlier, rfl, full, ?_⟩)
        simp [mergePrevious, found, full]

/-- Merging keeps what both updates say. -/
theorem Sound.mergePrevious (positive : 0 < ALIGN) (s : update.Sound included counted)
    (p : previous.Sound included' counted') :
    (update.mergePrevious previous).Sound (included ++ included')
      (counted ++ if previous.intervals.isNone then [previous.range] else counted') := by
  refine ⟨fun i h => ?_, fun intervals found => ?_, fun intervals found i h => ?_⟩
  · rw [touched_append] at h
    exact has_join (h.imp (s.envelope i) (p.envelope i))
  · rcases mergePrevious_intervals update previous with ⟨earlier, hearlier, full, merged⟩ |
      ⟨earlier, hearlier, occupied, merged⟩ | ⟨none, merged⟩
    · obtain rfl := Option.some.inj (merged.symm.trans found)
      exact .nil
    · obtain ⟨old, hold, rfl⟩ := Option.map_eq_some_iff.mp (merged.symm.trans found)
      refine (BufferIntervals.foldl_includeRange_tracks positive (s.tracks old hold)
        (p.tracks earlier hearlier)).mono fun i h => ?_
      rw [hearlier, touched_append]
      exact h
    · obtain ⟨old, hold, rfl⟩ := Option.map_eq_some_iff.mp (merged.symm.trans found)
      refine (BufferIntervals.includeRange_tracks positive (s.tracks old hold)
        previous.range).mono fun i h => ?_
      rw [none, touched_append]
      exact h.imp id touched_singleton.mpr
  · rw [touched_append] at h
    rcases mergePrevious_intervals update previous with ⟨earlier, hearlier, full, merged⟩ |
      ⟨earlier, hearlier, occupied, merged⟩ | ⟨none, merged⟩
    · obtain rfl := Option.some.inj (merged.symm.trans found)
      exact .inl rfl
    · obtain ⟨old, hold, rfl⟩ := Option.map_eq_some_iff.mp (merged.symm.trans found)
      refine (BufferIntervals.foldl_includeRange positive earlier.ranges
        (s.tracks old hold).ordered).2 i ?_
      exact h.imp (s.covers old hold i) fun later =>
        (p.covers earlier hearlier i later).resolve_left occupied
    · obtain ⟨old, hold, rfl⟩ := Option.map_eq_some_iff.mp (merged.symm.trans found)
      exact BufferIntervals.includeRange_covers positive (s.tracks old hold).ordered
        (h.imp (s.covers old hold i) (p.envelope i))

/-! ## Lists that were given up -/

/-- The list asks for the repair of the whole envelope. -/
def GivenUp (update : BufferUpdate N ALIGN) : Prop := update.intervals = some ⟨[]⟩

theorem foldl_includeRange_nil (ranges : List ByteRange) :
    ranges.foldl BufferIntervals.includeRange (⟨[]⟩ : BufferIntervals N ALIGN) = ⟨[]⟩ := by
  induction ranges with
  | nil => rfl
  | cons range rest ih => exact ih

theorem GivenUp.includeRange (h : update.GivenUp) (range : ByteRange) :
    (update.includeRange range).GivenUp := by
  rw [GivenUp, BufferUpdate.includeRange, h]
  rfl

theorem GivenUp.clone (h : update.GivenUp) (memory : Bool) : (update.clone memory).GivenUp := by
  rw [GivenUp, BufferUpdate.clone, h]
  rfl

theorem GivenUp.mergePrevious (h : update.GivenUp) (previous : BufferUpdate N ALIGN) :
    (update.mergePrevious previous).GivenUp := by
  rw [GivenUp]
  rcases mergePrevious_intervals update previous with ⟨earlier, -, -, merged⟩ |
    ⟨earlier, -, -, merged⟩ | ⟨-, merged⟩
  · exact merged
  · rw [merged, h, Option.map_some, foldl_includeRange_nil]
  · rw [merged, h]
    rfl

theorem GivenUp.merged (h : previous.GivenUp) (update : BufferUpdate N ALIGN) :
    (update.mergePrevious previous).GivenUp := by
  rw [GivenUp, BufferUpdate.mergePrevious, h]
  rfl

end BufferUpdate

/-! ## All histories -/

namespace BufferHistory

variable {N ALIGN : Nat}

theorem Continues.givenUp {history later : BufferHistory} (h : history.Continues later)
    (gone : (history.build N ALIGN).GivenUp) : (later.build N ALIGN).GivenUp := by
  induction h with
  | refl => exact gone
  | includeRange range _ ih => exact ih.includeRange range
  | mergePrevious previous _ ih => exact ih.mergePrevious _
  | merged next _ ih => exact ih.merged _
  | clone memory _ ih => exact ih.clone memory

theorem sound (room : 0 < N) (positive : 0 < ALIGN) (history : BufferHistory) :
    (history.build N ALIGN).Sound history.included (history.counted N ALIGN) := by
  induction history with
  | sparse memory revision range =>
      exact BufferUpdate.sparse_sound room positive memory revision range
  | envelope revision range =>
      refine ⟨fun i h => touched_singleton.mp h, fun intervals found => ?_,
        fun intervals found => ?_⟩ <;> cases found
  | includeRange history range ih => exact ih.includeRange positive range
  | mergePrevious history previous ih ih' => exact ih.mergePrevious positive ih'
  | clone memory history ih => exact ih.clone memory

/-- **Dirty intervals lose no byte.**  Whatever its history, the envelope of an update has
every included byte; its intervals are within their capacity, in order, aligned and apart;
they have every included byte unless the list is empty, and no block without a byte that
counts; and once the list is empty it stays so. -/
theorem build_sound (room : 0 < N) (alignment : ∃ k, ALIGN = 2 ^ k) (history : BufferHistory) :
    (history.build N ALIGN).Sound history.included (history.counted N ALIGN) ∧
      ∀ later, history.Continues later →
        (history.build N ALIGN).GivenUp → (later.build N ALIGN).GivenUp := by
  obtain ⟨k, rfl⟩ := alignment
  exact ⟨history.sound room (Nat.two_pow_pos k), fun later h gone => h.givenUp gone⟩

/-- A range with intervals, and an earlier update of two ranges without. -/
def sparseOverEnvelope : BufferHistory :=
  .mergePrevious (.sparse true 1 ⟨200, 204⟩)
    (.includeRange (.envelope 0 ⟨0, 4⟩) ⟨100, 104⟩)

theorem build_sound_sparseOverEnvelope :
    (sparseOverEnvelope.build 128 4).Sound [⟨200, 204⟩, ⟨0, 4⟩, ⟨100, 104⟩]
        [⟨200, 204⟩, ⟨0, 104⟩] ∧
      ∀ later, sparseOverEnvelope.Continues later →
        (sparseOverEnvelope.build 128 4).GivenUp → (later.build 128 4).GivenUp :=
  build_sound (by decide) ⟨2, rfl⟩ sparseOverEnvelope

/-- The gap of an envelope is merged with it: no included range touches block 10. -/
theorem mergePrevious_envelope_gap :
    (sparseOverEnvelope.build 128 4).intervals = some ⟨[⟨0, 104⟩, ⟨200, 204⟩]⟩ ∧
      ¬ ∃ i, i / 4 = 10 ∧ Touched sparseOverEnvelope.included i := by
  refine ⟨rfl, ?_⟩
  rintro ⟨i, block, range, member, low, high⟩
  have block := Nat.div_eq_iff (by decide : 0 < 4) |>.mp block
  simp only [sparseOverEnvelope, included, List.cons_append, List.nil_append, List.mem_cons,
    List.not_mem_nil, or_false] at member
  rcases member with rfl | rfl | rfl <;> dsimp only at low high <;> omega

end BufferHistory

end Sgfx
