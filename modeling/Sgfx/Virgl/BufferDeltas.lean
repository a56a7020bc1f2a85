import Sgfx.Buffers.Coverage
import Sgfx.Virgl.BufferPublication

/-!
# Deltas of pending plans

An update of a plan carries a delta for physical storage.  It names every byte in which
the pending contents differ from the accepted ones, and the bytes by which the buffer
grew: a write adds the range that it changes, and outside that range it changes nothing.

## Main Definitions

* `Differs` — a byte that is new, or not the same
* `Deltas` — the deltas of a plan are complete
* `Tracks` — a shadow, and the revision and contents of its physical storage

## Main Results

* `recordAll_deltas` — after any stream
* `prepared_source`, `prepared_updateForSlot` — reserving changes neither
* `Tracks.merged` — merging with the retained delta
-/

namespace Sgfx.Virgl

open Bytes BufferOnlyPlan

/-- Bytes are new at `i`, or other bytes. -/
def Differs (old new : List UInt8) (i : Nat) : Prop := old.length ≤ i ∨ get old i ≠ get new i

theorem not_differs {old new : List UInt8} {i : Nat} (h : ¬ Differs old new i) :
    i < old.length ∧ get old i = get new i := by
  rw [Differs, not_or, not_le, not_not] at h
  exact h

/-- An interval boundary is a multiple of four bytes. -/
theorem alignment_pos : 0 < 4 := Nat.succ_pos 3

/-- The update of a buffer names every byte in which `bytes`, what the plan makes of it,
differs from what the shadow holds. -/
structure Delta (shadows : List BufferShadow) (slot : Nat) (bytes : List UInt8)
    (upload : IrBufferUpdate) : Prop where
  ordered : upload.Ordered
  previous : upload.previousRevision = revisionOf shadows slot
  covers : ∀ i < bytes.length, Differs (baseOf shadows slot) bytes i → upload.Covers i

/-- The deltas of a plan are complete. -/
def Deltas (shadows : List BufferShadow) (plan : BufferOnlyPlan) (memory : Memory) : Prop :=
  ∀ u ∈ plan.updates, Delta shadows u.slot (memory u.slot) u.upload

variable {E : Type} {shadows : List BufferShadow} {plan : BufferOnlyPlan} {memory : Memory}

/-- Outside the range of a trimmed write, the bytes are those before. -/
theorem Trims.kept {base : List UInt8} {start : Nat} {data : List UInt8} {range : ByteRange}
    (t : Trims base start data range) {i : Nat} (inside : i < (Bytes.write base start data).length)
    (outside : ¬ range.Has i) : i < base.length ∧ get (Bytes.write base start data) i = get base i := by
  rw [write_length] at inside
  constructor
  · by_contra beyond
    have grown := t.grows (by omega)
    exact outside ⟨by omega, by omega⟩
  · rw [t.get_write, if_neg]
    intro here
    exact outside ⟨Nat.le_trans (Nat.le_max_right ..) here.1, here.2⟩

/-- A recorded write keeps the deltas complete. -/
theorem Deltas.write (d : Deltas shadows plan memory) (l : Layers shadows plan memory)
    {slot start : Nat} {data : List UInt8} {allocated : PlanSite → Bool} {plan' : BufferOnlyPlan}
    (h : (plan.write shadows slot start data allocated : Except (IrSubmitError E) _) = .ok plan') :
    Deltas shadows plan' (Function.update memory slot (Bytes.write (memory slot) start data)) := by
  rcases l.write_cases h with ⟨rfl, unchanged⟩ | ⟨range, u, rfl, amended⟩
  · rw [unchanged, Function.update_eq_self]
    exact d
  · intro v hv
    rcases amended.replaced.within v hv with rfl | ⟨old, other⟩
    · rw [Function.update_self]
      rcases amended.upload with ⟨before, member, same, upload⟩ | ⟨found, shadow, allocated, here, upload⟩
      · have earlier := d before member
        rw [same] at earlier
        refine ⟨?_, ?_, fun i inside differs => ?_⟩
        · rw [upload]
          exact BufferUpdate.includeRange_ordered alignment_pos earlier.ordered range
        · rw [upload]
          exact earlier.previous
        · rw [upload]
          refine BufferUpdate.includeRange_covers alignment_pos earlier.ordered ?_
          by_cases changed : range.Has i
          · exact .inr changed
          · obtain ⟨within, kept⟩ := amended.trims.kept inside changed
            rw [Differs, kept] at differs
            exact .inl (earlier.covers i within differs)
      · refine ⟨?_, ?_, fun i inside differs => ?_⟩
        · rw [upload]
          exact BufferUpdate.sparse_ordered alignment_pos allocated shadow.revision range
        · rw [upload, revisionOf, here]
          rfl
        · rw [upload]
          refine BufferUpdate.sparse_covers alignment_pos allocated shadow.revision ?_
          by_contra unchanged
          obtain ⟨within, kept⟩ := amended.trims.kept inside unchanged
          rw [Differs, kept, l.untouched v.slot found] at differs
          rw [l.untouched v.slot found] at within
          exact differs.elim (fun beyond => by omega) fun ne => ne rfl
    · rw [Function.update_of_ne other]
      exact d v old

theorem Deltas.record (d : Deltas shadows plan memory) (l : Layers shadows plan memory)
    {op : BufferOp} {allocated : PlanSite → Bool} {plan' : BufferOnlyPlan}
    (h : (op.record shadows allocated plan : Except (IrSubmitError E) _) = .ok plan') :
    Deltas shadows plan' (op.execute memory) := by
  cases op with
  | write slot start data => exact d.write l h
  | copy source sourceStart destination start size =>
      rw [BufferOp.record, BufferOnlyPlan.copy, except_bind_eq_ok] at h
      obtain ⟨_, -, h⟩ := h
      rw [except_bind_eq_ok] at h
      obtain ⟨_, -, h⟩ := h
      simp only at h
      rw [l.readRange_eq] at h
      exact d.write l h

/-- The deltas are complete after any stream. -/
theorem recordAll_deltas {ops : List (BufferOp × (PlanSite → Bool))}
    (h : (BufferOp.recordAll shadows ops .empty : Except (IrSubmitError E) _) = .ok plan) :
    Deltas shadows plan (BufferOp.executeAll (ops.map Prod.fst) (baseOf shadows)) := by
  refine (foldlM_ok (fun done plan =>
    Layers shadows plan (BufferOp.executeAll (done.map Prod.fst) (baseOf shadows)) ∧
      Deltas shadows plan (BufferOp.executeAll (done.map Prod.fst) (baseOf shadows))) ?_ ?_ h).2
  · exact ⟨Layers.empty shadows, fun u member => (List.not_mem_nil member).elim⟩
  · rintro done entry plan plan' ⟨layers, deltas⟩ recorded
    rw [List.map_append, List.map_singleton, BufferOp.executeAll_concat]
    exact ⟨(layers.record recorded).layers, deltas.record layers recorded⟩

/-! ## Reserved plans -/

section Reserved

variable {allocated : Nat → Bool} {prepared : PreparedBufferOnlyPlan}

theorem prepared_updateForSlot
    (h : (plan.reserve shadows allocated : Except (IrSubmitError E) _) = .ok prepared) (slot : Nat) :
    prepared.updateForSlot slot = (plan.updateForSlot slot).map (reservedUpdate shadows) := by
  rw [PreparedBufferOnlyPlan.updateForSlot, reserve_spec h, updateForSlot, updateForSlot,
    List.find?_map]
  congr 1
  exact congrArg (fun p => List.find? p plan.updates)
    (funext fun u => by rw [Function.comp, reservedUpdate_slot])

/-- A reserved plan is read as the plan itself. -/
theorem prepared_source
    (h : (plan.reserve shadows allocated : Except (IrSubmitError E) _) = .ok prepared)
    (shadow : BufferShadow) (slot : Nat) (memory : Bool) :
    (prepared.source shadow slot memory : Except (IrSubmitError E) BufferSource) =
      plan.source shadow slot memory := by
  have update := prepared_updateForSlot h slot
  rw [PreparedBufferOnlyPlan.updateForSlot] at update
  have writes : prepared.plan.writes = plan.writes := by rw [reserve_spec h]
  have ranges : ∀ u, (reservedUpdate shadows u).ranges = u.ranges := by
    intro u
    rw [reservedUpdate]
    split <;> rfl
  have overlays : prepared.plan.overlays slot = plan.overlays slot := by
    rw [BufferOnlyPlan.overlays, BufferOnlyPlan.overlays, update, writes]
    cases plan.updateForSlot slot with
    | none => rfl
    | some u => simp only [Option.map_some, ranges]
  rw [PreparedBufferOnlyPlan.source, BufferOnlyPlan.source, BufferOnlyPlan.source, overlays, update]
  cases plan.updateForSlot slot with
  | none => rfl
  | some u => simp only [Option.map_some, reservedUpdate_length]

end Reserved

/-! ## Physical storage -/

/-- Physical storage holds the bytes of a buffer. -/
def Agrees (contents bytes : List UInt8) : Prop := ∀ i < bytes.length, get contents i = get bytes i

/-- A delta names every byte of a buffer that physical storage has differently. -/
def Complete (contents bytes : List UInt8) (upload : IrBufferUpdate) : Prop :=
  ∀ i < bytes.length, get contents i ≠ get bytes i → upload.Covers i

/-- What the revision recorded for physical storage says about its contents: they are the
accepted ones if it is the accepted revision, and only the retained delta is missing if
it is the one that the delta starts from. -/
structure Tracks (shadow : BufferShadow) (uploaded : Option UInt64) (contents : List UInt8) :
    Prop where
  current : uploaded = some shadow.revision → Agrees contents (shadow.bytes.getD [])
  delta : ∀ upload, shadow.upload = some upload → upload.Ordered ∧
    upload.previousRevision < shadow.revision ∧
      (uploaded = some upload.previousRevision → Complete contents (shadow.bytes.getD []) upload)

/-- Without a recorded revision nothing is claimed. -/
theorem Tracks.forget {shadow : BufferShadow} {uploaded : Option UInt64}
    {contents other : List UInt8} (t : Tracks shadow uploaded contents) :
    Tracks shadow none other where
  current h := by cases h
  delta upload h := ⟨(t.delta upload h).1, (t.delta upload h).2.1, fun none => by cases none⟩

theorem Delta.clone {slot : Nat} {bytes : List UInt8} {upload : IrBufferUpdate}
    (d : Delta shadows slot bytes upload) (allocated : Bool) :
    Delta shadows slot bytes (upload.clone allocated) where
  ordered := d.ordered.clone allocated
  previous := d.previous
  covers i inside differs := BufferUpdate.Covers.clone d.ordered (d.covers i inside differs) allocated

/-- The delta that a plan's update and the retained one are merged to is sorted, starts
no later than the accepted revision, and is complete for the plan's bytes. -/
theorem Tracks.merged {slot : Nat} {shadow : BufferShadow} (here : shadows[slot]? = some shadow)
    {uploaded : Option UInt64} {contents bytes : List UInt8} (t : Tracks shadow uploaded contents)
    {upload : IrBufferUpdate} (d : Delta shadows slot bytes upload) :
    (shadow.mergedUpload upload).Ordered ∧
      (shadow.mergedUpload upload).previousRevision ≤ shadow.revision ∧
      (uploaded = some (shadow.mergedUpload upload).previousRevision →
        Complete contents bytes (shadow.mergedUpload upload)) := by
  have previous : upload.previousRevision = shadow.revision := by
    rw [d.previous, revisionOf, here]
    rfl
  have base : baseOf shadows slot = shadow.bytes.getD [] := baseOf_eq here
  cases retained : shadow.upload with
  | none =>
      have same : shadow.mergedUpload upload = upload := by
        rw [BufferShadow.mergedUpload, retained]
      rw [same, previous]
      refine ⟨d.ordered, UInt64.le_refl _, fun atBase i inside differs => d.covers i inside ?_⟩
      by_contra agree
      obtain ⟨within, equal⟩ := not_differs agree
      rw [base] at within equal
      exact differs ((t.current atBase i within).trans equal)
  | some earlier =>
      obtain ⟨ordered, older, complete⟩ := t.delta earlier retained
      have same : shadow.mergedUpload upload = upload.mergePrevious earlier := by
        rw [BufferShadow.mergedUpload, retained]
        exact if_pos ⟨previous, older⟩
      obtain ⟨sorted, covers⟩ := BufferUpdate.mergePrevious_spec alignment_pos d.ordered ordered
      rw [same]
      refine ⟨sorted, UInt64.le_of_lt older, fun atEarlier i inside differs => covers i ?_⟩
      by_cases changed : Differs (baseOf shadows slot) bytes i
      · exact .inl (d.covers i inside changed)
      · obtain ⟨within, equal⟩ := not_differs changed
        rw [base] at within equal
        exact .inr (complete atEarlier i within fun agree => differs (agree.trans equal))

end Sgfx.Virgl
