import Mathlib.Logic.Function.Basic
import Sgfx.Virgl.BufferLayers

/-!
# Recording writes and copies

A write or a copy that a plan accepts keeps `Layers` for the memory that executing it
directly gives, and starts an update of its buffer exactly if it changes it.

## Main Definitions

* `BufferOp`, with `execute` and `record`

## Main Results

* `Layers.record` — one operation
* `Layers.record_ok` — an operation in range is recorded
-/

namespace Sgfx.Virgl

open Bytes Ranges Ranges.RangeIndex

/-- A buffer command of a stream. -/
inductive BufferOp where
  | write (slot start : Nat) (data : List UInt8)
  | copy (source sourceStart destination start size : Nat)

namespace BufferOp

/-- The buffer that an operation writes. -/
def target : BufferOp → Nat
  | write slot _ _ => slot
  | copy _ _ destination _ _ => destination

/-- Where it writes. -/
def start : BufferOp → Nat
  | write _ start _ => start
  | copy _ _ _ start _ => start

/-- What it writes. -/
def data (memory : Memory) : BufferOp → List UInt8
  | write _ _ data => data
  | copy source sourceStart _ _ size => window (memory source) sourceStart size

/-- Execute an operation directly on zero-extended arrays. -/
def execute (op : BufferOp) (memory : Memory) : Memory :=
  Function.update memory op.target (Bytes.write (memory op.target) op.start (op.data memory))

/-- An operation that the resource table lets through: what it reads and writes is
addressable, and its buffer has a revision left. -/
def InRange (shadows : List BufferShadow) (op : BufferOp) : Prop :=
  (∃ shadow, shadows[op.target]? = some shadow ∧ (checkedAdd64 shadow.revision 1).isSome) ∧
    match op with
    | write _ start data => start + data.length < 2 ^ 64
    | copy _ sourceStart _ start size => sourceStart + size < 2 ^ 64 ∧ start + size < 2 ^ 64

/-- Record an operation in a plan. -/
def record {E : Type} (op : BufferOp) (shadows : List BufferShadow) (memory : PlanSite → Bool)
    (plan : BufferOnlyPlan) : Except (IrSubmitError E) BufferOnlyPlan :=
  match op with
  | write slot start data => plan.write shadows slot start data memory
  | copy source sourceStart destination start size =>
      plan.copy shadows source sourceStart destination start size memory

end BufferOp

/-! ## Updates of a plan -/

theorem mem_modifyUpdate {slot : Nat} {f : BufferRangeUpdate → BufferRangeUpdate}
    {updates : List BufferRangeUpdate} (sorted : updates.Pairwise fun u v => u.slot < v.slot)
    {v : BufferRangeUpdate} :
    v ∈ BufferOnlyPlan.modifyUpdate slot f updates ↔
      (v ∈ updates ∧ v.slot ≠ slot) ∨ ∃ u ∈ updates, u.slot = slot ∧ v = f u := by
  induction updates with
  | nil => simp [BufferOnlyPlan.modifyUpdate]
  | cons u rest ih =>
      obtain ⟨first, rest_sorted⟩ := List.pairwise_cons.mp sorted
      rw [BufferOnlyPlan.modifyUpdate]
      by_cases here : u.slot = slot
      · rw [if_pos (beq_iff_eq.mpr here), List.mem_cons]
        constructor
        · rintro (rfl | member)
          · exact .inr ⟨u, List.mem_cons_self, here, rfl⟩
          · exact .inl ⟨List.mem_cons_of_mem _ member, fun same =>
              absurd (first v member) (by rw [here, same]; exact Nat.lt_irrefl _)⟩
        · rintro (⟨member, other⟩ | ⟨w, member, same, rfl⟩)
          · rcases List.mem_cons.mp member with rfl | later
            · exact absurd here other
            · exact .inr later
          · rw [eq_of_slot_eq sorted member List.mem_cons_self (same.trans here.symm)]
            exact .inl rfl
      · rw [if_neg (by rw [beq_iff_eq]; exact here), List.mem_cons, ih rest_sorted]
        constructor
        · rintro (rfl | ⟨member, other⟩ | ⟨w, member, same, rfl⟩)
          · exact .inl ⟨List.mem_cons_self, here⟩
          · exact .inl ⟨List.mem_cons_of_mem _ member, other⟩
          · exact .inr ⟨w, List.mem_cons_of_mem _ member, same, rfl⟩
        · rintro (⟨member, other⟩ | ⟨w, member, same, rfl⟩)
          · rcases List.mem_cons.mp member with rfl | later
            · exact .inl rfl
            · exact .inr (.inl ⟨later, other⟩)
          · rcases List.mem_cons.mp member with rfl | later
            · exact absurd same here
            · exact .inr (.inr ⟨w, later, same, rfl⟩)

theorem modifyUpdate_sorted {slot : Nat} {f : BufferRangeUpdate → BufferRangeUpdate}
    {updates : List BufferRangeUpdate} (same : ∀ u, (f u).slot = u.slot)
    (sorted : updates.Pairwise fun u v => u.slot < v.slot) :
    (BufferOnlyPlan.modifyUpdate slot f updates).Pairwise fun u v => u.slot < v.slot := by
  induction updates with
  | nil => exact .nil
  | cons u rest ih =>
      obtain ⟨first, rest_sorted⟩ := List.pairwise_cons.mp sorted
      rw [BufferOnlyPlan.modifyUpdate]
      split
      · exact List.pairwise_cons.mpr ⟨fun v member => by rw [same]; exact first v member, rest_sorted⟩
      · refine List.pairwise_cons.mpr ⟨fun v member => ?_, ih rest_sorted⟩
        rcases (mem_modifyUpdate rest_sorted).mp member with ⟨old, -⟩ | ⟨w, old, -, rfl⟩
        · exact first v old
        · rw [same]
          exact first w old

theorem mem_insertUpdate {update v : BufferRangeUpdate} {updates : List BufferRangeUpdate} :
    v ∈ BufferOnlyPlan.insertUpdate update updates ↔ v = update ∨ v ∈ updates := by
  rw [BufferOnlyPlan.insertUpdate, List.mem_append, List.mem_cons, or_left_comm, ← List.mem_append,
    List.take_append_drop]

theorem insertUpdate_sorted {update : BufferRangeUpdate} {updates : List BufferRangeUpdate}
    (sorted : updates.Pairwise fun u v => u.slot < v.slot)
    (fresh : ∀ u ∈ updates, u.slot ≠ update.slot) :
    (BufferOnlyPlan.insertUpdate update updates).Pairwise fun u v => u.slot < v.slot := by
  have before : ∀ u ∈ updates.takeWhile fun u => decide (u.slot < update.slot),
      u.slot < update.slot := fun u member => by simpa using List.mem_takeWhile_imp member
  have after : ∀ u ∈ updates.dropWhile fun u => decide (u.slot < update.slot),
      update.slot < u.slot := by
    intro u member
    have ge := not_of_mem_dropWhile sorted (fun x _ y _ less fails => by
      simp only [decide_eq_false_iff_not] at fails ⊢
      omega) u member
    have ne := fresh u ((List.dropWhile_sublist _).subset member)
    simp only [decide_eq_false_iff_not] at ge
    omega
  simp only [BufferOnlyPlan.insertUpdate]
  rw [take_partitionPoint, drop_partitionPoint, List.pairwise_append, List.pairwise_cons]
  refine ⟨sorted.sublist (List.takeWhile_sublist _),
    ⟨after, sorted.sublist (List.dropWhile_sublist _)⟩, fun u hu v hv => ?_⟩
  rcases List.mem_cons.mp hv with rfl | later
  · exact before u hu
  · exact Nat.lt_trans (before u hu) (after v later)

/-! ## Changed ranges -/

variable {E : Type} {shadows : List BufferShadow} {plan : BufferOnlyPlan} {memory : Memory}

/-- What `changed_range` finds: nothing if the write changes nothing, and otherwise a
range with everything it changes. -/
theorem Layers.changedRange_spec (l : Layers shadows plan memory) {slot start : Nat}
    {data : List UInt8} {changed : Option ByteRange}
    (h : (plan.changedRange shadows slot start data : Except (IrSubmitError E) _) = .ok changed) :
    (changed = none → Bytes.write (memory slot) start data = memory slot) ∧
      ∀ range ∈ changed, Trims (memory slot) start data range := by
  rw [BufferOnlyPlan.changedRange, except_bind_eq_ok] at h
  obtain ⟨stop, hstop, h⟩ := h
  rw [except_bind_eq_ok] at h
  obtain ⟨shadow, hshadow, h⟩ := h
  rw [okOr_eq_ok] at hstop hshadow
  have stop_eq : stop = start + data.length := by
    rw [checkedAddUsize] at hstop
    split at hstop
    · exact (Option.some.inj hstop).symm
    · cases hstop
  subst stop_eq
  cases found : plan.updateForSlot slot with
  | none =>
      rw [found] at h
      simp only at h
      rw [except_bind_eq_ok] at h
      obtain ⟨range, hrange, h⟩ := h
      rw [okOr_eq_ok] at hrange
      obtain ⟨empty, trims⟩ := changedBufferBytes_trims hrange
      rw [l.untouched slot found, baseOf_eq hshadow]
      obtain rfl := Except.ok.inj h
      cases hempty : range.isEmpty with
      | true => exact ⟨fun _ => empty hempty, fun other member => by cases member⟩
      | false =>
          refine ⟨fun none => (by cases none), fun other member => ?_⟩
          obtain rfl := Option.some.inj member
          exact trims hempty
  | some u =>
      rw [found] at h
      simp only at h
      obtain ⟨member, rfl⟩ := updateForSlot_mem found
      have length := (l.updated u member).bytes_length
      have hread : ∀ offset count, plan.readRange shadows u.slot (start + offset) count =
          window (memory u.slot) (start + offset) count := fun offset count => l.readRange_eq ..
      obtain ⟨front_le, front_same, front_differ⟩ := scanPrefix_spec hread
        (Nat.min_le_right (u.length - start) data.length) (Nat.zero_le _)
        fun i less => absurd less (Nat.not_lt_zero i)
      rw [← length] at h front_le front_same front_differ
      generalize BufferOnlyPlan.scanPrefix _ data (min ((memory u.slot).length - start) data.length) 0 = front at *
      have scans : Scans (memory u.slot) start data front
          (if start + data.length ≤ (memory u.slot).length
            then BufferOnlyPlan.scanSuffix (fun offset count => plan.readRange shadows u.slot (start + offset) count)
              data front 0 else 0) := by
        refine ⟨front_le, front_same, front_differ, ?_, ?_, fun grows => if_neg (by omega)⟩
        all_goals split
        · exact (scanSuffix_spec hread (Nat.zero_le _) fun i less => absurd less (Nat.not_lt_zero i)).1
        · exact Nat.zero_le _
        · exact (scanSuffix_spec hread (Nat.zero_le _) fun i less => absurd less (Nat.not_lt_zero i)).2
        · exact fun i less => absurd less (Nat.not_lt_zero i)
      split at h
      · rename_i same
        obtain rfl := Except.ok.inj h
        exact ⟨fun _ => write_eq_self_of_scan scans same.1 same.2, fun other member => by cases member⟩
      · rename_i differs
        obtain rfl := Except.ok.inj h
        refine ⟨fun none => (by cases none), fun other member => ?_⟩
        obtain rfl := Option.some.inj member
        exact Trims.of_scan scans differs

/-! ## One more write -/

section Extend

variable {writes : List BufferRangeWrite} {slot start length : Nat} {base bytes data : List UInt8}
  {ranges ranges' : RangeIndex} {range : ByteRange}

/-- The write that a plan appends. -/
def trimmedWrite (slot start : Nat) (data : List UInt8) (range : ByteRange) : BufferRangeWrite :=
  ⟨slot, max start range.start, data, ⟨max start range.start - start, range.stop - start⟩⟩

theorem Trims.trimmedWrite_stop (t : Trims bytes start data range) (slot : Nat) :
    (trimmedWrite slot start data range).start + (trimmedWrite slot start data range).bytes.length =
      range.stop := by
  have := t.low
  have := t.high
  rw [BufferRangeWrite.bytes, List.length_take, List.length_drop]
  show max start range.start + min (range.stop - start - (max start range.start - start))
    (data.length - (max start range.start - start)) = range.stop
  omega

theorem Trims.trimmedWrite_covers (t : Trims bytes start data range) (slot i : Nat) :
    (trimmedWrite slot start data range).covers i ↔ max start range.start ≤ i ∧ i < range.stop := by
  rw [BufferRangeWrite.covers, t.trimmedWrite_stop slot]
  rfl

theorem trimmedWrite_byteAt (slot : Nat) {i : Nat}
    (here : max start range.start ≤ i ∧ i < range.stop) :
    (trimmedWrite slot start data range).byteAt i = get data (i - start) := by
  rw [BufferRangeWrite.byteAt, BufferRangeWrite.bytes, get_take, get_drop]
  show (if i - max start range.start < range.stop - start - (max start range.start - start)
    then get data (max start range.start - start + (i - max start range.start)) else 0) = _
  rw [if_pos (by omega)]
  congr 1
  omega

/-- Outside the trimmed range a write changes nothing. -/
theorem Trims.get_write (t : Trims bytes start data range) (i : Nat) :
    get (Bytes.write bytes start data) i =
      if max start range.start ≤ i ∧ i < range.stop then get data (i - start) else get bytes i := by
  rw [Bytes.get_write]
  have := t.high
  by_cases here : max start range.start ≤ i ∧ i < range.stop
  · rw [if_pos here, if_pos (by omega)]
  · rw [if_neg here]
    split
    · rename_i inside
      exact (t.same i inside.1 inside.2 here).symm
    · rfl

theorem insert_within {index index' : RangeIndex} {write : Nat} {allocated : Bool}
    (o : Ordered index.segments) (h : index.insert range write allocated = some index') :
    ∀ t ∈ index'.segments, t = ⟨range.start, range.stop, write⟩ ∨
      ∃ s ∈ index.segments, t.write = s.write ∧ s.start ≤ t.start ∧ t.stop ≤ s.stop := by
  intro t member
  cases nonempty : range.isEmpty with
  | true =>
      rw [RangeIndex.insert, nonempty, if_pos rfl] at h
      obtain rfl := Option.some.inj h
      exact .inr ⟨t, member, rfl, Nat.le_refl _, Nat.le_refl _⟩
  | false =>
      rcases (insert_inserted o h nonempty).within t member with new | ⟨s, hs, same, low, high, -⟩
      · exact .inl new
      · exact .inr ⟨s, hs, same, low, high⟩

/-- A slot of which nothing is written yet. -/
theorem SlotLayers.fresh (none : ∀ item ∈ writes, item.slot ≠ slot) :
    SlotLayers writes slot base .empty base.length base where
  base_le := Nat.le_refl _
  bytes_length := rfl
  written := ⟨⟨fun s member => (List.not_mem_nil member).elim, .nil⟩,
    fun s member => (List.not_mem_nil member).elim⟩
  within s member := (List.not_mem_nil member).elim
  layered i := rfl
  replayed i := by
    rw [replayedAt]
    refine List.foldlRecOn writes _ (motive := fun byte => byte = get base i) rfl ?_
    intro byte same item member
    rw [replayByte, if_neg fun h => none item member h.1, same]

/-- A write of another slot. -/
theorem SlotLayers.append (s : SlotLayers writes slot base ranges length bytes)
    {item : BufferRangeWrite} (other : item.slot ≠ slot) :
    SlotLayers (writes ++ [item]) slot base ranges length bytes where
  base_le := s.base_le
  bytes_length := s.bytes_length
  written := ⟨s.written.ordered, fun t member => by
    obtain ⟨old, found, rest⟩ := s.written.written t member
    exact ⟨old, (List.getElem?_append_left (List.getElem?_eq_some_iff.mp found).1).trans found, rest⟩⟩
  within := s.within
  layered i := by
    rw [← s.layered, layeredAt, layeredAt]
    cases last : ranges.writeAt i with
    | none => rfl
    | some k =>
        obtain ⟨t, member, -, rfl⟩ := (writeAt_eq_some_iff s.written.ordered).mp last
        obtain ⟨old, found, -⟩ := s.written.written t member
        rw [Option.bind_some, Option.bind_some,
          List.getElem?_append_left (List.getElem?_eq_some_iff.mp found).1]
  replayed i := by
    rw [← s.replayed, replayedAt, List.foldl_append, List.foldl_cons, List.foldl_nil, replayByte,
      if_neg fun h => other h.1]
    rfl

/-- A write of the slot, trimmed to what it changes. -/
theorem SlotLayers.write (s : SlotLayers writes slot base ranges length bytes)
    (t : Trims bytes start data range) {allocated : Bool}
    (h : ranges.insert ⟨max start range.start, range.stop⟩ writes.length allocated = some ranges') :
    SlotLayers (writes ++ [trimmedWrite slot start data range]) slot base ranges'
      (max length (start + data.length)) (Bytes.write bytes start data) where
  base_le := Nat.le_trans s.base_le (Nat.le_max_left ..)
  bytes_length := by rw [write_length, s.bytes_length]
  written := by
    refine ⟨insert_ordered s.written.ordered h, fun u member => ?_⟩
    rcases insert_within s.written.ordered h u member with rfl | ⟨v, hv, same, low, high⟩
    · refine ⟨trimmedWrite slot start data range, List.getElem?_concat_length, rfl, Nat.le_refl _, ?_⟩
      rw [t.trimmedWrite_stop]
    · obtain ⟨old, found, slot_eq, lower, upper⟩ := s.written.written v hv
      rw [same, List.getElem?_append_left (List.getElem?_eq_some_iff.mp found).1]
      exact ⟨old, found, slot_eq, by omega, by omega⟩
  within := by
    intro u member
    have := t.high
    rcases insert_within s.written.ordered h u member with rfl | ⟨v, hv, same, low, high⟩
    · show range.stop ≤ _
      omega
    · have := s.within v hv
      omega
  layered i := by
    rw [t.get_write, ← s.layered, layeredAt, writeAt_insert s.written.ordered h]
    by_cases here : max start range.start ≤ i ∧ i < range.stop
    · rw [if_pos here, if_pos here, Option.bind_some, List.getElem?_concat_length]
      exact trimmedWrite_byteAt slot here
    · rw [if_neg here, if_neg here, layeredAt]
      cases last : ranges.writeAt i with
      | none => rfl
      | some k =>
          obtain ⟨u, member, -, rfl⟩ := (writeAt_eq_some_iff s.written.ordered).mp last
          obtain ⟨old, found, -⟩ := s.written.written u member
          rw [Option.bind_some, Option.bind_some,
            List.getElem?_append_left (List.getElem?_eq_some_iff.mp found).1]
  replayed i := by
    have before := s.replayed i
    rw [replayedAt] at before
    rw [t.get_write, replayedAt, List.foldl_append, List.foldl_cons, List.foldl_nil, before,
      replayByte]
    by_cases here : max start range.start ≤ i ∧ i < range.stop
    · rw [if_pos ⟨rfl, (t.trimmedWrite_covers slot i).mpr here⟩, if_pos here,
        trimmedWrite_byteAt slot here]
    · rw [if_neg fun h => here ((t.trimmedWrite_covers slot i).mp h.2), if_neg here]

end Extend

/-! ## One operation -/

/-- What an operation that is recorded does: the plan stands for the memory after it,
and has an update more exactly if the operation changes a buffer that had none. -/
structure Recorded (shadows : List BufferShadow) (plan plan' : BufferOnlyPlan)
    (memory memory' : Memory) : Prop where
  layers : Layers shadows plan' memory'
  updates : ∀ slot, (plan'.updateForSlot slot).isSome ↔
    (plan.updateForSlot slot).isSome ∨ memory' slot ≠ memory slot

/-- Updates of which one is replaced, or new. -/
structure Replaced (updates updates' : List BufferRangeUpdate) (u : BufferRangeUpdate) : Prop where
  sorted : updates'.Pairwise fun u v => u.slot < v.slot
  new : u ∈ updates'
  within : ∀ v ∈ updates', v = u ∨ v ∈ updates ∧ v.slot ≠ u.slot
  kept : ∀ v ∈ updates, v.slot ≠ u.slot → v ∈ updates'
  grows : ∀ v ∈ updates, v.slot = u.slot → v.length ≤ u.length

theorem Replaced.modifyUpdate {updates : List BufferRangeUpdate} {u : BufferRangeUpdate}
    (sorted : updates.Pairwise fun u v => u.slot < v.slot) (member : u ∈ updates)
    {f : BufferRangeUpdate → BufferRangeUpdate} (same : ∀ v, (f v).slot = v.slot)
    (grows : ∀ v, v.length ≤ (f v).length) :
    Replaced updates (BufferOnlyPlan.modifyUpdate u.slot f updates) (f u) where
  sorted := modifyUpdate_sorted same sorted
  new := (mem_modifyUpdate sorted).mpr (.inr ⟨u, member, rfl, rfl⟩)
  within v hv := by
    rcases (mem_modifyUpdate sorted).mp hv with old | ⟨w, hw, slot, rfl⟩
    · exact .inr ⟨old.1, by rw [same]; exact old.2⟩
    · exact .inl (by rw [eq_of_slot_eq sorted hw member slot])
  kept v hv other := (mem_modifyUpdate sorted).mpr (.inl ⟨hv, by rw [same] at other; exact other⟩)
  grows v hv slot := by
    rw [same] at slot
    rw [eq_of_slot_eq sorted hv member slot]
    exact grows u

theorem Replaced.insertUpdate {updates : List BufferRangeUpdate} {u : BufferRangeUpdate}
    (sorted : updates.Pairwise fun u v => u.slot < v.slot)
    (fresh : ∀ v ∈ updates, v.slot ≠ u.slot) :
    Replaced updates (BufferOnlyPlan.insertUpdate u updates) u where
  sorted := insertUpdate_sorted sorted fresh
  new := mem_insertUpdate.mpr (.inl rfl)
  within v hv := (mem_insertUpdate.mp hv).imp id fun old => ⟨old, fresh v old⟩
  kept _ hv _ := mem_insertUpdate.mpr (.inr hv)
  grows _ hv slot := absurd slot (fresh _ hv)

/-- A write that changes a buffer, recorded in the update that replaces that of its
buffer. -/
theorem Layers.replace (l : Layers shadows plan memory) {updates : List BufferRangeUpdate}
    {u : BufferRangeUpdate} (r : Replaced plan.updates updates u)
    (revision : ∃ shadow, shadows[u.slot]? = some shadow ∧
      checkedAdd64 shadow.revision 1 = some u.revision)
    {start : Nat} {data : List UInt8} {range : ByteRange}
    (t : Trims (memory u.slot) start data range) (stop : start + data.length ≤ u.length)
    (slot : SlotLayers (plan.writes ++ [trimmedWrite u.slot start data range]) u.slot
      (baseOf shadows u.slot) u.ranges u.length (Bytes.write (memory u.slot) start data)) :
    Recorded shadows plan ⟨updates, plan.writes ++ [trimmedWrite u.slot start data range]⟩ memory
      (Function.update memory u.slot (Bytes.write (memory u.slot) start data)) := by
  have other : ∀ v ∈ updates, v.slot ≠ u.slot → v ∈ plan.updates := by
    intro v hv ne
    rcases r.within v hv with rfl | ⟨old, -⟩
    · exact absurd rfl ne
    · exact old
  have none_iff : ∀ other, other ≠ u.slot →
      ((⟨updates, plan.writes ++ [trimmedWrite u.slot start data range]⟩ : BufferOnlyPlan).updateForSlot
        other = none ↔ plan.updateForSlot other = none) := by
    intro slot ne
    rw [updateForSlot_eq_none_iff, updateForSlot_eq_none_iff]
    constructor
    · intro h v hv same
      exact h v (r.kept v hv (same ▸ ne)) same
    · intro h v hv same
      exact h v (other v hv (same ▸ ne)) same
  have some_here : (⟨updates, plan.writes ++ [trimmedWrite u.slot start data range]⟩ :
      BufferOnlyPlan).updateForSlot u.slot = some u := updateForSlot_of_mem r.sorted r.new
  constructor
  · constructor
    · exact r.sorted
    · intro v hv
      rcases r.within v hv with rfl | ⟨old, -⟩
      · exact revision
      · exact l.revision v old
    · intro v hv
      rcases r.within v hv with rfl | ⟨old, ne⟩
      · rw [Function.update_self]
        exact slot
      · rw [Function.update_of_ne ne]
        exact (l.updated v old).append ne.symm
    · intro other none
      by_cases here : other = u.slot
      · subst here
        rw [some_here] at none
        cases none
      · rw [Function.update_of_ne here]
        exact l.untouched other ((none_iff other here).mp none)
    · intro item member
      rcases List.mem_append.mp member with old | new
      · obtain ⟨v, hv, same, fits⟩ := l.owned item old
        by_cases here : v.slot = u.slot
        · exact ⟨u, r.new, here.symm.trans same, Nat.le_trans fits (r.grows v hv here)⟩
        · exact ⟨v, r.kept v hv here, same, fits⟩
      · obtain rfl := List.mem_singleton.mp new
        refine ⟨u, r.new, rfl, ?_⟩
        rw [t.trimmedWrite_stop]
        exact Nat.le_trans t.high stop
  · intro other
    by_cases here : other = u.slot
    · subst here
      rw [some_here, Function.update_self]
      exact ⟨fun _ => .inr t.changed, fun _ => rfl⟩
    · rw [Function.update_of_ne here, ← Option.ne_none_iff_isSome, ← Option.ne_none_iff_isSome,
        Ne, none_iff other here]
      exact ⟨.inl, fun h => h.resolve_right fun ne => ne rfl⟩

/-- A write that changes a buffer, as `write` records it: `u` takes the place of the
update of the buffer, or is its first. -/
structure Amended (shadows : List BufferShadow) (plan plan' : BufferOnlyPlan) (memory : Memory)
    (start : Nat) (data : List UInt8) (range : ByteRange) (u : BufferRangeUpdate) : Prop where
  trims : Trims (memory u.slot) start data range
  replaced : Replaced plan.updates plan'.updates u
  writes : plan'.writes = plan.writes ++ [trimmedWrite u.slot start data range]
  revision : ∃ shadow, shadows[u.slot]? = some shadow ∧
    checkedAdd64 shadow.revision 1 = some u.revision
  stop : start + data.length ≤ u.length
  layers : SlotLayers plan'.writes u.slot (baseOf shadows u.slot) u.ranges u.length
    (Bytes.write (memory u.slot) start data)
  upload : (∃ v ∈ plan.updates, v.slot = u.slot ∧ u.upload = v.upload.includeRange range) ∨
    plan.updateForSlot u.slot = none ∧ ∃ shadow allocated, shadows[u.slot]? = some shadow ∧
      u.upload = .sparse allocated shadow.revision range

/-- What a write that is recorded does to the plan. -/
theorem Layers.write_cases (l : Layers shadows plan memory) {slot start : Nat} {data : List UInt8}
    {allocated : PlanSite → Bool} {plan' : BufferOnlyPlan}
    (h : (plan.write shadows slot start data allocated : Except (IrSubmitError E) _) = .ok plan') :
    plan' = plan ∧ Bytes.write (memory slot) start data = memory slot ∨
      ∃ range u, u.slot = slot ∧ Amended shadows plan plan' memory start data range u := by
  rw [BufferOnlyPlan.write, except_bind_eq_ok] at h
  obtain ⟨changed, hchanged, h⟩ := h
  obtain ⟨unchanged, trims⟩ := l.changedRange_spec hchanged
  cases changed with
  | none =>
      obtain rfl := Except.ok.inj h
      exact .inl ⟨rfl, unchanged rfl⟩
  | some range =>
      have t := trims range rfl
      simp only at h
      rw [except_bind_eq_ok] at h
      obtain ⟨_, -, h⟩ := h
      cases found : plan.updateForSlot slot with
      | some u =>
          rw [found] at h
          simp only at h
          rw [except_bind_eq_ok] at h
          obtain ⟨ranges, inserted, h⟩ := h
          rw [okOr_eq_ok] at inserted
          obtain rfl := Except.ok.inj h
          obtain ⟨member, rfl⟩ := updateForSlot_mem found
          have replaced := Replaced.modifyUpdate l.sorted member (f := fun update => { update with
            ranges
            length := max update.length (start + data.length)
            upload := update.upload.includeRange range }) (fun _ => rfl) fun v => Nat.le_max_left ..
          exact .inr ⟨range, { u with
              ranges
              length := max u.length (start + data.length)
              upload := u.upload.includeRange range }, rfl, t, replaced, rfl, l.revision u member,
            Nat.le_max_right .., (l.updated u member).write t inserted, .inl ⟨u, member, rfl, rfl⟩⟩
      | none =>
          rw [found] at h
          simp only at h
          rw [except_bind_eq_ok] at h
          obtain ⟨shadow, here, h⟩ := h
          rw [except_bind_eq_ok] at h
          obtain ⟨revision, next, h⟩ := h
          rw [except_bind_eq_ok] at h
          obtain ⟨_, -, h⟩ := h
          rw [except_bind_eq_ok] at h
          obtain ⟨ranges, inserted, h⟩ := h
          rw [okOr_eq_ok] at here next inserted
          obtain rfl := Except.ok.inj h
          have fresh := updateForSlot_eq_none_iff.mp found
          have unwritten : ∀ item ∈ plan.writes, item.slot ≠ slot := by
            intro item member same
            obtain ⟨u, hu, slot_eq, -⟩ := l.owned item member
            exact fresh u hu (slot_eq.trans same)
          have base := l.untouched slot found
          have length : max (start + data.length) shadow.length =
              max (baseOf shadows slot).length (start + data.length) := by
            rw [baseOf_length here, Nat.max_comm]
          rw [length]
          refine .inr ⟨range, _, rfl, t, Replaced.insertUpdate l.sorted fresh, rfl,
            ⟨shadow, here, next⟩, Nat.le_max_right .., ?_, .inr ⟨found, shadow, _, here, rfl⟩⟩
          show SlotLayers _ slot _ _ _ (Bytes.write (memory slot) start data)
          rw [base] at t ⊢
          exact (SlotLayers.fresh unwritten).write t inserted

/-- A write that is recorded. -/
theorem Layers.write (l : Layers shadows plan memory) {slot start : Nat} {data : List UInt8}
    {allocated : PlanSite → Bool} {plan' : BufferOnlyPlan}
    (h : (plan.write shadows slot start data allocated : Except (IrSubmitError E) _) = .ok plan') :
    Recorded shadows plan plan' memory
      (Function.update memory slot (Bytes.write (memory slot) start data)) := by
  rcases l.write_cases h with ⟨rfl, unchanged⟩ | ⟨range, u, rfl, amended⟩
  · rw [unchanged, Function.update_eq_self]
    exact ⟨l, fun slot => ⟨.inl, fun h => h.resolve_right fun ne => ne rfl⟩⟩
  · obtain ⟨trims, replaced, writes, revision, stop, layers, -⟩ := amended
    obtain ⟨updates, _⟩ := plan'
    obtain rfl : _ = plan.writes ++ _ := writes
    exact l.replace replaced revision trims stop layers

/-- An operation that is recorded. -/
theorem Layers.record (l : Layers shadows plan memory) {op : BufferOp}
    {allocated : PlanSite → Bool} {plan' : BufferOnlyPlan}
    (h : (op.record shadows allocated plan : Except (IrSubmitError E) _) = .ok plan') :
    Recorded shadows plan plan' memory (op.execute memory) := by
  cases op with
  | write slot start data => exact l.write h
  | copy source sourceStart destination start size =>
      rw [BufferOp.record, BufferOnlyPlan.copy, except_bind_eq_ok] at h
      obtain ⟨_, -, h⟩ := h
      rw [except_bind_eq_ok] at h
      obtain ⟨_, -, h⟩ := h
      simp only at h
      rw [l.readRange_eq] at h
      exact l.write h

/-! ## Success -/

theorem checkedAddUsize_of_lt {a b : Nat} (h : a + b < 2 ^ 64) : checkedAddUsize a b = some (a + b) := by
  rw [checkedAddUsize, if_pos h]

theorem insert_ok (index : RangeIndex) (range : ByteRange) (write : Nat) :
    ∃ index', index.insert range write true = some index' := by
  rw [RangeIndex.insert]
  split
  · exact ⟨_, rfl⟩
  · simp only [Bool.true_eq_false, and_false, if_false]
    exact ⟨_, rfl⟩

theorem changedRange_ok {slot start : Nat} {data : List UInt8} {shadow : BufferShadow}
    (here : shadows[slot]? = some shadow) (fits : start + data.length < 2 ^ 64) :
    ∃ changed, (plan.changedRange shadows slot start data : Except (IrSubmitError E) _) =
      .ok changed := by
  have stop := checkedAddUsize_of_lt fits
  refine except_bind_ok ⟨_, okOr_eq_ok.mpr stop⟩ fun _ _ => ?_
  refine except_bind_ok ⟨_, okOr_eq_ok.mpr here⟩ fun shadow _ => ?_
  cases plan.updateForSlot slot with
  | none =>
      refine except_bind_ok ?_ fun range _ => ⟨_, rfl⟩
      rw [changedBufferBytes_eq, stop]
      exact ⟨_, rfl⟩
  | some u =>
      simp only
      split <;> exact ⟨_, rfl⟩

theorem write_ok {slot start : Nat} {data : List UInt8} {shadow : BufferShadow}
    (here : shadows[slot]? = some shadow) (next : (checkedAdd64 shadow.revision 1).isSome)
    (fits : start + data.length < 2 ^ 64) :
    ∃ plan', (plan.write shadows slot start data fun _ => true : Except (IrSubmitError E) _) =
      .ok plan' := by
  obtain ⟨revision, next⟩ := Option.isSome_iff_exists.mp next
  refine except_bind_ok (changedRange_ok here fits) fun changed _ => ?_
  cases changed with
  | none => exact ⟨_, rfl⟩
  | some range =>
      refine except_bind_ok ⟨(), rfl⟩ fun _ _ => ?_
      cases plan.updateForSlot slot with
      | some u =>
          obtain ⟨ranges, inserted⟩ := insert_ok u.ranges ⟨max start range.start, range.stop⟩
            plan.writes.length
          exact except_bind_ok ⟨ranges, okOr_eq_ok.mpr inserted⟩ fun _ _ => ⟨_, rfl⟩
      | none =>
          obtain ⟨ranges, inserted⟩ := insert_ok .empty ⟨max start range.start, range.stop⟩
            plan.writes.length
          refine except_bind_ok ⟨shadow, okOr_eq_ok.mpr here⟩ fun other same => ?_
          obtain rfl : shadow = other := by
            rw [okOr_eq_ok, here] at same
            exact Option.some.inj same
          refine except_bind_ok ⟨revision, okOr_eq_ok.mpr next⟩ fun _ _ => ?_
          refine except_bind_ok ⟨(), rfl⟩ fun _ _ => ?_
          exact except_bind_ok ⟨ranges, okOr_eq_ok.mpr inserted⟩ fun _ _ => ⟨_, rfl⟩

/-- An operation in range is recorded, as long as there is memory. -/
theorem Layers.record_ok (l : Layers shadows plan memory) {op : BufferOp}
    (inRange : op.InRange shadows) :
    ∃ plan', (op.record shadows (fun _ => true) plan : Except (IrSubmitError E) _) = .ok plan' := by
  obtain ⟨⟨shadow, here, next⟩, fits⟩ := inRange
  cases op with
  | write slot start data => exact write_ok here next fits
  | copy source sourceStart destination start size =>
      refine except_bind_ok ⟨_, okOr_eq_ok.mpr (checkedAddUsize_of_lt fits.1)⟩ fun _ _ => ?_
      refine except_bind_ok ⟨(), rfl⟩ fun _ _ => ?_
      refine write_ok here next ?_
      rw [l.readRange_eq, window_length]
      exact fits.2

end Sgfx.Virgl
