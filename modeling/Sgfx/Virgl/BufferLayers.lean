import Sgfx.Buffers.Sources
import Sgfx.Virgl.BufferTrims

/-!
# Reading through the layers of a plan

`Layers` relates a plan to the memory that executing its operations directly on
zero-extended arrays gives.  Each updated buffer is described twice: through its range
index, which is what reading uses, and through the chronological writes, which is what
publication replays.

## Main Definitions

* `Memory`, `layeredAt`, `replayedAt`
* `Written`, `SlotLayers`, `Layers` — the invariant

## Main Results

* `Layers.readRange_eq`, `Layers.range_eq`, `Layers.source_spec`
-/

namespace Sgfx.Virgl

open Bytes Ranges Ranges.RangeIndex

/-- What every buffer holds. -/
abbrev Memory := Nat → List UInt8

namespace BufferRangeWrite

/-- A write writes a byte. -/
def covers (item : BufferRangeWrite) (i : Nat) : Prop :=
  item.start ≤ i ∧ i < item.start + item.bytes.length

instance (item : BufferRangeWrite) (i : Nat) : Decidable (item.covers i) :=
  inferInstanceAs (Decidable (_ ∧ _))

/-- The byte that a write writes. -/
def byteAt (item : BufferRangeWrite) (i : Nat) : UInt8 := get item.bytes (i - item.start)

end BufferRangeWrite

/-- A byte of a buffer through the range index. -/
def layeredAt (writes : List BufferRangeWrite) (ranges : RangeIndex) (base : List UInt8)
    (i : Nat) : UInt8 :=
  match (ranges.writeAt i).bind (writes[·]?) with
  | some item => item.byteAt i
  | none => get base i

/-- A byte of a buffer after one more write. -/
def replayByte (slot i : Nat) (byte : UInt8) (item : BufferRangeWrite) : UInt8 :=
  if item.slot = slot ∧ item.covers i then item.byteAt i else byte

/-- A byte of a buffer after the writes of its slot. -/
def replayedAt (writes : List BufferRangeWrite) (slot i : Nat) (byte : UInt8) : UInt8 :=
  writes.foldl (replayByte slot i) byte

/-- Every segment of a range index is part of a write of its slot. -/
structure Written (writes : List BufferRangeWrite) (slot : Nat) (ranges : RangeIndex) : Prop where
  ordered : Ordered ranges.segments
  written : ∀ s ∈ ranges.segments, ∃ item, writes[s.write]? = some item ∧ item.slot = slot ∧
    item.start ≤ s.start ∧ s.stop ≤ item.start + item.bytes.length

/-! ## One segment -/

section Segments

variable {writes : List BufferRangeWrite} {slot : Nat} {ranges : RangeIndex}

theorem Written.layeredAt_of_covers (w : Written writes slot ranges) {s : Ranges.Segment}
    (member : s ∈ ranges.segments) {i : Nat} (covers : s.covers i = true)
    {item : BufferRangeWrite} (found : writes[s.write]? = some item) (base : List UInt8) :
    layeredAt writes ranges base i = item.byteAt i := by
  have last : ranges.writeAt i = some s.write :=
    (writeAt_eq_some_iff w.ordered).mpr ⟨s, member, covers, rfl⟩
  rw [layeredAt, last, Option.bind_some, found]

theorem layeredAt_of_not_covers {i : Nat} (none : ∀ s ∈ ranges.segments, s.covers i = false)
    (base : List UInt8) : layeredAt writes ranges base i = get base i := by
  rw [layeredAt, writeAt_eq_none_iff.mpr none]
  rfl

/-- Pasting a segment into a window it meets. -/
theorem pasteSegment_spec {start stop : Nat} {bytes : List UInt8} {s : Ranges.Segment}
    {item : BufferRangeWrite} (found : writes[s.write]? = some item)
    (lower : item.start ≤ s.start) (upper : s.stop ≤ item.start + item.bytes.length)
    (meets : s.start < stop ∧ start < s.stop) (length : bytes.length = stop - start)
    (nonempty : s.start < s.stop) (inside : start ≤ stop) :
    (BufferOnlyPlan.pasteSegment writes start stop bytes s).length = bytes.length ∧
      ∀ j < stop - start, get (BufferOnlyPlan.pasteSegment writes start stop bytes s) j =
        if s.covers (start + j) then item.byteAt (start + j) else get bytes j := by
  rw [BufferOnlyPlan.pasteSegment, found]
  have copied : ((item.bytes.drop (max start s.start - item.start)).take
      (min stop s.stop - max start s.start)).length = min stop s.stop - max start s.start := by
    rw [List.length_take, List.length_drop]
    omega
  have room : max start s.start - start + ((item.bytes.drop (max start s.start - item.start)).take
      (min stop s.stop - max start s.start)).length ≤ bytes.length := by
    rw [copied]
    omega
  refine ⟨splice_length room, fun j bound => ?_⟩
  rw [get_splice room, copied]
  by_cases here : s.covers (start + j) = true
  · have ⟨low, high⟩ := Segment.covers_iff.mp here
    rw [if_pos (by omega), if_pos here, get_take, if_pos (by omega), get_drop,
      BufferRangeWrite.byteAt]
    congr 1
    omega
  · rw [if_neg here, if_neg fun h => here (Segment.covers_iff.mpr (by omega))]

/-- Pasting the segments of a query, one after another. -/
theorem Written.paste_spec (w : Written writes slot ranges) {start stop : Nat}
    (inside : start ≤ stop) {segments : List Ranges.Segment} (sub : ∀ s ∈ segments, s ∈ ranges.segments)
    (meets : ∀ s ∈ segments, s.start < stop ∧ start < s.stop) (base : List UInt8)
    {bytes : List UInt8} (length : bytes.length = stop - start) :
    (segments.foldl (BufferOnlyPlan.pasteSegment writes start stop) bytes).length = bytes.length ∧
      ∀ j < stop - start,
        get (segments.foldl (BufferOnlyPlan.pasteSegment writes start stop) bytes) j =
          if segments.any fun s => s.covers (start + j)
            then layeredAt writes ranges base (start + j) else get bytes j := by
  induction segments generalizing bytes with
  | nil => exact ⟨rfl, fun j _ => rfl⟩
  | cons s rest ih =>
      have member : s ∈ ranges.segments := sub s List.mem_cons_self
      obtain ⟨item, found, -, lower, upper⟩ := w.written s member
      obtain ⟨pasted, read⟩ := pasteSegment_spec found lower upper (meets s List.mem_cons_self)
        length (w.ordered.nonempty s member) inside
      obtain ⟨kept, later⟩ := ih (fun t ht => sub t (List.mem_cons_of_mem _ ht))
        (fun t ht => meets t (List.mem_cons_of_mem _ ht)) (pasted.trans length)
      refine ⟨kept.trans pasted, fun j bound => ?_⟩
      rw [List.foldl_cons, later j bound, read j bound, List.any_cons]
      by_cases here : s.covers (start + j) = true
      · rw [here, Bool.true_or, if_pos rfl, if_pos rfl, w.layeredAt_of_covers member here found]
        split <;> rfl
      · rw [Bool.eq_false_iff.mpr here, Bool.false_or, if_neg Bool.false_ne_true]

end Segments

/-! ## The invariant -/

/-- One updated buffer: `base` is what its shadow holds, and `bytes` what executing the
operations gives. -/
structure SlotLayers (writes : List BufferRangeWrite) (slot : Nat) (base : List UInt8)
    (ranges : RangeIndex) (length : Nat) (bytes : List UInt8) : Prop where
  base_le : base.length ≤ length
  bytes_length : bytes.length = length
  written : Written writes slot ranges
  within : ∀ s ∈ ranges.segments, s.stop ≤ length
  layered : ∀ i, layeredAt writes ranges base i = get bytes i
  replayed : ∀ i, replayedAt writes slot i (get base i) = get bytes i

/-- A plan and the memory that its operations give. -/
structure Layers (shadows : List BufferShadow) (plan : BufferOnlyPlan) (memory : Memory) :
    Prop where
  sorted : plan.updates.Pairwise fun u v => u.slot < v.slot
  revision : ∀ u ∈ plan.updates, ∃ shadow, shadows[u.slot]? = some shadow ∧
    checkedAdd64 shadow.revision 1 = some u.revision
  updated : ∀ u ∈ plan.updates,
    SlotLayers plan.writes u.slot (baseOf shadows u.slot) u.ranges u.length (memory u.slot)
  untouched : ∀ slot, plan.updateForSlot slot = none → memory slot = baseOf shadows slot
  owned : ∀ item ∈ plan.writes, ∃ u ∈ plan.updates, u.slot = item.slot ∧
    item.start + item.bytes.length ≤ u.length

theorem Layers.empty (shadows : List BufferShadow) :
    Layers shadows .empty (baseOf shadows) where
  sorted := .nil
  revision u member := by cases member
  updated u member := by cases member
  untouched slot _ := rfl
  owned item member := by cases member

section Updates

variable {plan : BufferOnlyPlan} {slot : Nat} {u : BufferRangeUpdate}

theorem updateForSlot_mem (found : plan.updateForSlot slot = some u) :
    u ∈ plan.updates ∧ u.slot = slot := by
  have same := List.find?_some found
  exact ⟨List.mem_of_find?_eq_some found, by simpa using same⟩

theorem updateForSlot_eq_none_iff :
    plan.updateForSlot slot = none ↔ ∀ u ∈ plan.updates, u.slot ≠ slot := by
  rw [BufferOnlyPlan.updateForSlot, List.find?_eq_none]
  exact forall₂_congr fun u _ => by rw [beq_iff_eq]

theorem eq_of_slot_eq {updates : List BufferRangeUpdate}
    (sorted : updates.Pairwise fun u v => u.slot < v.slot) {u v : BufferRangeUpdate}
    (hu : u ∈ updates) (hv : v ∈ updates) (same : u.slot = v.slot) : u = v := by
  have apart : updates.Pairwise fun u v => u.slot = v.slot → u = v :=
    sorted.imp fun less same => absurd same (Nat.ne_of_lt less)
  refine List.Pairwise.forall_of_forall_of_flip (fun _ _ _ => rfl) apart ?_ hu hv same
  exact sorted.imp fun less same => absurd same.symm (Nat.ne_of_lt less)

theorem updateForSlot_of_mem (sorted : plan.updates.Pairwise fun u v => u.slot < v.slot)
    (member : u ∈ plan.updates) : plan.updateForSlot u.slot = some u := by
  cases found : plan.updateForSlot u.slot with
  | none => exact absurd rfl (updateForSlot_eq_none_iff.mp found u member)
  | some v =>
      obtain ⟨hv, same⟩ := updateForSlot_mem found
      rw [eq_of_slot_eq sorted hv member same]

end Updates

/-! ## Reading -/

/-- The first part of `read_range`: the window of the shadow. -/
theorem shadowWindow (shadows : List BufferShadow) (slot start length : Nat) :
    (match (shadows[slot]?).bind BufferShadow.bytes with
      | some previous =>
          if start < previous.length then
            Bytes.splice (List.replicate length 0) 0
              ((previous.drop start).take (min length (previous.length - start)))
          else List.replicate length 0
      | none => List.replicate length 0) = window (baseOf shadows slot) start length := by
  have zeros : ∀ bytes : List UInt8, bytes.length ≤ start →
      List.replicate length 0 = window bytes start length := by
    intro bytes short
    refine Bytes.ext (by rw [List.length_replicate, window_length]) fun i _ => ?_
    rw [get_replicate_zero, get_window, get_of_length_le (by omega), ite_self]
  rw [baseOf]
  cases (shadows[slot]?).bind BufferShadow.bytes with
  | none => exact zeros [] (Nat.zero_le _)
  | some previous =>
      rw [Option.getD_some]
      simp only
      split
      · have count : ((previous.drop start).take (min length (previous.length - start))).length =
            min length (previous.length - start) := by
          rw [List.length_take, List.length_drop]
          omega
        have room : 0 + ((previous.drop start).take (min length (previous.length - start))).length ≤
            (List.replicate length (0 : UInt8)).length := by
          rw [count, List.length_replicate]
          omega
        refine Bytes.ext ?_ fun i _ => ?_
        · rw [splice_length room, List.length_replicate, window_length]
        · rw [get_splice room, count, get_window, get_replicate_zero, Nat.sub_zero, get_take, get_drop]
          by_cases copied : i < min length (previous.length - start)
          · rw [if_pos (by omega), if_pos copied, if_pos (by omega)]
          · rw [if_neg (by omega)]
            split
            · rw [get_of_length_le (by omega)]
            · rfl
      · rename_i past
        exact zeros previous (Nat.le_of_not_lt past)

variable {E : Type} {shadows : List BufferShadow} {plan : BufferOnlyPlan} {memory : Memory}

namespace Layers

/-- Reading any window through the plan. -/
theorem readRange_eq (l : Layers shadows plan memory) (slot start length : Nat) :
    plan.readRange shadows slot start length = window (memory slot) start length := by
  have start_eq := shadowWindow shadows slot start length
  rw [BufferOnlyPlan.readRange]
  cases found : plan.updateForSlot slot with
  | none =>
      rw [l.untouched slot found]
      exact start_eq
  | some u =>
      obtain ⟨member, rfl⟩ := updateForSlot_mem found
      have layers := l.updated u member
      have ordered := layers.written.ordered
      obtain ⟨sub, meets, complete⟩ := intersecting_spec Segment.range
        (fun s h => Nat.le_of_lt (ordered.nonempty s h)) ordered.ascending ⟨start, start + length⟩
      have filled : (window (baseOf shadows u.slot) start length).length =
          start + length - start := by rw [window_length, Nat.add_sub_cancel_left]
      obtain ⟨kept, read⟩ := layers.written.paste_spec (Nat.le_add_right start length)
        sub.subset meets (baseOf shadows u.slot) filled
      rw [window_length] at kept
      refine (congrArg (fun bytes => (u.ranges.query ⟨start, start + length⟩).foldl
        (BufferOnlyPlan.pasteSegment plan.writes start (start + length)) bytes) start_eq).trans ?_
      refine Bytes.ext (kept.trans (window_length ..).symm) fun j bound => ?_
      have bound : j < length := kept ▸ bound
      refine (read j (by omega)).trans ?_
      rw [get_window, get_window, if_pos bound, if_pos bound, ← layers.layered]
      split
      · rfl
      · -- No segment of the query covers the byte, so no segment of the index does.
        rename_i uncovered
        refine (layeredAt_of_not_covers (fun s hs => ?_) _).symm
        by_contra covers
        rw [Bool.not_eq_false] at covers
        obtain ⟨low, high⟩ := Segment.covers_iff.mp covers
        have queried := complete s hs (start + j) low high (Nat.le_add_right ..) (by
          show start + j < start + length
          omega)
        exact uncovered (List.any_eq_true.mpr ⟨s, queried, covers⟩)

/-- The length of a buffer through the plan. -/
theorem length_eq (l : Layers shadows plan memory) (slot : Nat) :
    plan.length shadows slot = (memory slot).length := by
  rw [BufferOnlyPlan.length]
  cases found : plan.updateForSlot slot with
  | none => rw [l.untouched slot found]
  | some u =>
      obtain ⟨member, rfl⟩ := updateForSlot_mem found
      have layers := l.updated u member
      rw [layers.bytes_length]
      exact Nat.max_eq_left layers.base_le

end Layers

theorem baseOf_eq {slot : Nat} {shadow : BufferShadow} (here : shadows[slot]? = some shadow) :
    baseOf shadows slot = shadow.bytes.getD [] := by
  rw [baseOf, here, Option.bind_some]

theorem baseOf_length {slot : Nat} {shadow : BufferShadow} (here : shadows[slot]? = some shadow) :
    shadow.length = (baseOf shadows slot).length := by
  rw [baseOf_eq here, BufferShadow.length]
  cases shadow.bytes <;> rfl

/-- The bytes inside an array are the window there. -/
theorem take_drop_eq_window {bytes : List UInt8} {start length : Nat}
    (inside : start + length ≤ bytes.length) :
    (bytes.drop start).take length = window bytes start length := by
  have count : ((bytes.drop start).take length).length = length := by
    rw [List.length_take, List.length_drop]
    omega
  refine Bytes.ext (count.trans (window_length ..).symm) fun i bound => ?_
  rw [count] at bound
  rw [get_take, get_drop, get_window]

namespace Layers

/-- A byte that no segment covers is that of the shadow. -/
theorem get_of_not_covers (l : Layers shadows plan memory) {slot i : Nat}
    (none : ∀ u, plan.updateForSlot slot = some u → ∀ s ∈ u.ranges.segments, s.covers i = false) :
    get (memory slot) i = get (baseOf shadows slot) i := by
  cases found : plan.updateForSlot slot with
  | none => rw [l.untouched slot found]
  | some u =>
      obtain ⟨member, rfl⟩ := updateForSlot_mem found
      rw [← (l.updated u member).layered, layeredAt_of_not_covers (none u found)]

/-- `PendingBuffers::range`, which borrows from the shadow when nothing overlaps. -/
theorem range_eq (l : Layers shadows plan memory) (slot : Nat) {range : ByteRange}
    (order : range.start ≤ range.stop) (inside : range.stop ≤ (memory slot).length) :
    (plan.range shadows slot range true : Except (IrSubmitError E) (List UInt8)) =
      .ok (window (memory slot) range.start (range.stop - range.start)) := by
  rw [BufferOnlyPlan.range, l.length_eq, if_neg (by omega)]
  simp only [Bool.true_eq_false, if_false]
  split
  · rename_i bytes borrowed
    obtain ⟨hbytes, hcond⟩ := Option.filter_eq_some_iff.mp borrowed
    obtain ⟨apart, short⟩ := of_decide_eq_true hcond
    have base : baseOf shadows slot = bytes := by rw [baseOf, hbytes, Option.getD_some]
    rw [take_drop_eq_window (by omega)]
    refine congrArg Except.ok (window_congr fun i low high => ?_)
    rw [← base]
    refine (l.get_of_not_covers fun u found s hs => ?_).symm
    by_contra covers
    rw [Bool.not_eq_false] at covers
    obtain ⟨low', high'⟩ := Segment.covers_iff.mp covers
    obtain ⟨member, rfl⟩ := updateForSlot_mem found
    have ordered := (l.updated u member).written.ordered
    have queried := (intersecting_spec Segment.range
      (fun s h => Nat.le_of_lt (ordered.nonempty s h)) ordered.ascending range).2.2 s hs i low' high' low (by omega)
    rw [found, Option.any_some, decide_eq_false_iff_not, Bool.not_eq_false,
      List.isEmpty_iff] at apart
    have queried : s ∈ u.ranges.query range := queried
    rw [apart] at queried
    cases queried
  · exact congrArg Except.ok (l.readRange_eq slot _ _)

end Layers

/-! ## Sources -/

/-- An overlay holds its part of some bytes. -/
structure Holds (bytes : List UInt8) (overlay : BufferOverlay) : Prop where
  nonempty : overlay.range.start < overlay.range.stop
  length : overlay.bytes.length = overlay.range.stop - overlay.range.start
  same : ∀ i, overlay.range.start ≤ i → i < overlay.range.stop →
    get overlay.bytes (i - overlay.range.start) = get bytes i

theorem Holds.agrees {bytes : List UInt8} {overlay : BufferOverlay} (h : Holds bytes overlay) :
    Agrees bytes overlay :=
  ⟨Nat.le_of_lt h.nonempty, h.length, h.same⟩

/-- A sparse source holds `bytes` when its overlays do, and its base does outside
them. -/
theorem copyRange_sparse {base : Option (List UInt8)} {overlays : List BufferOverlay}
    {len : Nat} {bytes : List UInt8} (holds : ∀ overlay ∈ overlays, Holds bytes overlay)
    (ascending : overlays.Pairwise fun x y => x.range.stop ≤ y.range.start)
    (outside : ∀ i, (∀ overlay ∈ overlays,
        ¬ (overlay.range.start ≤ i ∧ i < overlay.range.stop)) → get bytes i = get (base.getD []) i)
    {range : ByteRange} (order : range.start ≤ range.stop) (inside : range.stop ≤ len) :
    (BufferSource.sparse base overlays len).copyRange range (range.stop - range.start) =
      .ok (window bytes range.start (range.stop - range.start)) :=
  copyRange_agrees (fun overlay h => (holds overlay h).agrees) ascending
    (fun i _ => outside i) order inside

/-- The overlay of a segment. -/
def segmentOverlay (writes : List BufferRangeWrite) (s : Ranges.Segment) : BufferOverlay :=
  match writes[s.write]? with
  | some item => ⟨s.range, (item.bytes.drop (s.start - item.start)).take (s.stop - s.start)⟩
  | none => ⟨s.range, []⟩

theorem segmentOverlay_of_found {writes : List BufferRangeWrite} {s : Ranges.Segment}
    {item : BufferRangeWrite} (found : writes[s.write]? = some item) :
    segmentOverlay writes s =
      ⟨s.range, (item.bytes.drop (s.start - item.start)).take (s.stop - s.start)⟩ := by
  rw [segmentOverlay, found]

theorem segmentOverlay_range (writes : List BufferRangeWrite) (s : Ranges.Segment) :
    (segmentOverlay writes s).range = s.range := by
  rw [segmentOverlay]
  split <;> rfl

theorem SlotLayers.holds {writes : List BufferRangeWrite} {slot length : Nat}
    {base bytes : List UInt8} {ranges : RangeIndex}
    (layers : SlotLayers writes slot base ranges length bytes) {s : Ranges.Segment}
    (member : s ∈ ranges.segments) : Holds bytes (segmentOverlay writes s) := by
  obtain ⟨item, found, -, lower, upper⟩ := layers.written.written s member
  have nonempty := layers.written.ordered.nonempty s member
  rw [segmentOverlay_of_found found]
  refine ⟨nonempty, ?_, fun i low high => ?_⟩
  · show ((item.bytes.drop _).take _).length = s.stop - s.start
    rw [List.length_take, List.length_drop]
    omega
  · have low : s.start ≤ i := low
    have high : i < s.stop := high
    have covers := Segment.covers_iff.mpr ⟨low, high⟩
    rw [← layers.layered, layers.written.layeredAt_of_covers member covers found,
      BufferRangeWrite.byteAt]
    show get ((item.bytes.drop _).take _) (i - s.start) = _
    rw [get_take, if_pos (by omega), get_drop]
    congr 1
    omega

namespace Layers

theorem overlays_eq (l : Layers shadows plan memory) {u : BufferRangeUpdate}
    (member : u ∈ plan.updates) :
    plan.overlays u.slot = u.ranges.segments.map (segmentOverlay plan.writes) := by
  rw [BufferOnlyPlan.overlays, updateForSlot_of_mem l.sorted member, ← List.filterMap_eq_map]
  refine List.filterMap_congr fun s hs => ?_
  obtain ⟨item, found, -⟩ := (l.updated u member).written.written s hs
  rw [Function.comp_apply, segmentOverlay_of_found found, found]
  rfl

/-- Without an update there are no overlays. -/
theorem overlays_of_none {slot : Nat} (none : plan.updateForSlot slot = none) :
    plan.overlays slot = [] := by
  rw [BufferOnlyPlan.overlays, none]

theorem source_eq (l : Layers shadows plan memory) {slot : Nat} {shadow : BufferShadow}
    (here : shadows[slot]? = some shadow) (allocated : Bool) :
    (plan.source shadow slot allocated : Except (IrSubmitError E) BufferSource) =
      if (plan.overlays slot).isEmpty = false ∧ allocated = false then .error .outOfMemory
      else if (plan.overlays slot).isEmpty ∧ (memory slot).length = shadow.length then
        match shadow.bytes with
        | some bytes => .ok (.contiguous bytes)
        | none => .error .invalidVertexData
      else .ok (.sparse shadow.bytes (plan.overlays slot) (memory slot).length) := by
  have through := l.length_eq slot
  rw [BufferOnlyPlan.length, ← baseOf_length here] at through
  rw [← through]
  rfl

/-- What an upload reads: every range inside the buffer, from the shadow and the
overlays. -/
theorem source_spec (l : Layers shadows plan memory) {slot : Nat} {shadow : BufferShadow}
    (here : shadows[slot]? = some shadow) {allocated : Bool} {source : BufferSource}
    (h : (plan.source shadow slot allocated : Except (IrSubmitError E) BufferSource) = .ok source) :
    source.len = (memory slot).length ∧
      (∀ range : ByteRange, range.start ≤ range.stop → range.stop ≤ (memory slot).length →
        source.copyRange range (range.stop - range.start) =
          .ok (window (memory slot) range.start (range.stop - range.start))) ∧
      ∀ range bytes, source.directRange range = some bytes →
        bytes = window (memory slot) range.start (range.stop - range.start) := by
  have base := baseOf_eq here
  have shadowLength := baseOf_length here
  rw [l.source_eq here] at h
  split at h
  · cases h
  split at h
  · -- Nothing is layered over the shadow.
    rename_i plain
    obtain ⟨empty, same⟩ := plain
    rw [List.isEmpty_iff] at empty
    have unchanged : memory slot = baseOf shadows slot := by
      refine Bytes.ext (same.trans shadowLength) fun i _ => l.get_of_not_covers fun u found s hs => ?_
      obtain ⟨member, rfl⟩ := updateForSlot_mem found
      rw [l.overlays_eq member, List.map_eq_nil_iff] at empty
      rw [empty] at hs
      cases hs
    cases hbytes : shadow.bytes with
    | none =>
        rw [hbytes] at h
        cases h
    | some bytes =>
        rw [hbytes] at h
        obtain rfl := Except.ok.inj h
        have contents : memory slot = bytes := by rw [unchanged, base, hbytes, Option.getD_some]
        rw [contents]
        refine ⟨rfl, fun range order inside => ?_, fun range direct found => ?_⟩
        · have fits : ¬ (range.stop < range.start ∨
              range.stop - range.start ≠ range.stop - range.start ∨
              (BufferSource.contiguous bytes).len < range.stop) := by
            rw [BufferSource.len]
            omega
          rw [BufferSource.copyRange, if_neg fits, take_drop_eq_window (by omega)]
        · rw [BufferSource.directRange] at found
          split at found
          · obtain rfl := Option.some.inj found
            exact take_drop_eq_window (by omega)
          · cases found
  · obtain rfl := Except.ok.inj h
    refine ⟨rfl, fun range order inside => ?_, fun range direct found => by cases found⟩
    -- The overlays are those of the segments, in their order.
    cases found : plan.updateForSlot slot with
    | none =>
        rw [overlays_of_none found]
        refine copyRange_sparse (fun overlay h => absurd h List.not_mem_nil) .nil (fun i _ => ?_)
          order inside
        rw [l.untouched slot found, base]
    | some u =>
        obtain ⟨member, rfl⟩ := updateForSlot_mem found
        have layers := l.updated u member
        rw [l.overlays_eq member]
        refine copyRange_sparse (fun overlay h => ?_) ?_ (fun i outside => ?_) order inside
        · obtain ⟨s, hs, rfl⟩ := List.mem_map.mp h
          exact layers.holds hs
        · rw [List.pairwise_map]
          refine layers.written.ordered.ascending.imp fun {s t} order => ?_
          rw [segmentOverlay_range, segmentOverlay_range]
          exact order
        · rw [← base]
          refine l.get_of_not_covers fun v other s hs => ?_
          rw [found] at other
          obtain rfl := Option.some.inj other
          have apart := outside _ (List.mem_map_of_mem hs)
          rw [segmentOverlay_range] at apart
          rw [← Bool.not_eq_true, Segment.covers_iff]
          exact apart

end Layers

end Sgfx.Virgl
