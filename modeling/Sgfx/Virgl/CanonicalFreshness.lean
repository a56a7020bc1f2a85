import Sgfx.Virgl.BufferPublication
import Sgfx.Virgl.CanonicalVertices

/-!
# Validations are never stale

The revision that a pending stream gives a buffer covers every state the buffer has in
the stream, so it does not identify its bytes.  What does is the revision together with
the validations of the pending stream, because a write or a copy drops those of its
buffer.  An accepted stream has no write after a validation it commits, and a revision
that a rejected stream had used was never committed.

## Main Definitions

* `CanonicalRecord`, `CanonicalBytes` — what validation establishes
* `IrResources.Fresh`, `PendingBuffers.Fresh` — the invariants

## Main Results

* `IrResources.Fresh.run` — after any events
* `canonical_draws_validated` — every persistent draw reads validated records
-/

namespace Sgfx.Virgl

open Bytes

/-- The number at an offset of a record. -/
def f32At (record : List UInt8) (offset : Nat) : F32 := ⟨.ofNat (leWord ((record.drop offset).take 4))⟩

/-- A canonical record: finite positions and texture coordinates, and colour components
that are finite and between zero and one. -/
structure CanonicalRecord (record : List UInt8) : Prop where
  coordinates : ∀ offset ∈ [0, 4, 8, 12, 32, 36], (f32At record offset).isFinite = true
  colors : ∀ offset ∈ [16, 20, 24, 28], (f32At record offset).isFinite = true ∧
    inUnitInterval (f32At record offset) = true

/-- Bytes made of canonical records. -/
structure CanonicalBytes (bytes : List UInt8) : Prop where
  nonempty : bytes.length ≠ 0
  whole : bytes.length % 40 = 0
  records : ∀ i < bytes.length / 40, CanonicalRecord (window bytes (40 * i) 40)

variable {E V : Type}

theorem validateCanonicalRecord_ok {record : List UInt8}
    (h : (validateCanonicalRecord record : Except (IrSubmitError E) Unit) = .ok ()) :
    CanonicalRecord record := by
  rw [validateCanonicalRecord, except_bind_eq_ok] at h
  obtain ⟨_, coordinates, colors⟩ := h
  rw [forEach_eq_ok] at coordinates colors
  have value : ∀ (offset : Nat) (x : F32), (readF32 record offset : Except (IrSubmitError E) F32) =
      .ok x → x = f32At record offset := by
    intro offset x read
    rw [readF32] at read
    split at read
    · exact (Except.ok.inj read).symm
    · cases read
  constructor
  · intro offset member
    obtain ⟨x, read, finite⟩ := except_bind_eq_ok.mp (coordinates offset member)
    rw [failIf_eq_ok, Bool.not_eq_false] at finite
    exact value offset x read ▸ finite
  · intro offset member
    obtain ⟨x, read, valid⟩ := except_bind_eq_ok.mp (colors offset member)
    rw [failIf_eq_ok, not_or, Bool.not_eq_false, Bool.not_eq_false] at valid
    exact value offset x read ▸ valid

/-! ## The invariants -/

/-- Every revision known to be validated is an earlier one, or that of canonical
bytes. -/
structure IrResources.Fresh (resources : IrResources) : Prop where
  validated : ∀ slot c shadow, resources.canonicalBufferRevision slot = some c →
    resources.bufferShadows[slot]? = some shadow →
      c.toNat ≤ shadow.revision.toNat ∧
        (c = shadow.revision → CanonicalBytes (baseOf resources.bufferShadows slot))

/-- The validations of a pending stream are those of the bytes it has now. -/
structure PendingBuffers.Fresh (E : Type) (pending : PendingBuffers) (shadows : List BufferShadow)
    (memory : Memory) : Prop where
  layers : Layers shadows pending.plan memory
  validated : ∀ validation ∈ pending.canonicalValidations,
    (pending.revision shadows validation.1 : Except (IrSubmitError E) UInt64) = .ok validation.2 ∧
      CanonicalBytes (memory validation.1)

theorem PendingBuffers.Fresh.new (shadows : List BufferShadow) :
    PendingBuffers.Fresh E .new shadows (baseOf shadows) where
  layers := Layers.empty shadows
  validated _ member := (List.not_mem_nil member).elim

section Pending

variable {shadows : List BufferShadow} {pending : PendingBuffers} {memory : Memory}

/-- The revision of a slot depends on the plan only through whether the slot has an
update. -/
theorem Layers.revision_eq {plan plan' : BufferOnlyPlan} {memory memory' : Memory}
    (l : Layers shadows plan memory) (l' : Layers shadows plan' memory') {slot : Nat}
    (same : (plan'.updateForSlot slot).isSome ↔ (plan.updateForSlot slot).isSome)
    (validations validations' : List (Nat × UInt64)) :
    (PendingBuffers.revision ⟨plan', validations'⟩ shadows slot : Except (IrSubmitError E) UInt64) =
      PendingBuffers.revision ⟨plan, validations⟩ shadows slot := by
  rw [PendingBuffers.revision, PendingBuffers.revision]
  cases found : plan.updateForSlot slot with
  | none =>
      have none' : plan'.updateForSlot slot = none := by
        rw [found] at same
        cases found' : plan'.updateForSlot slot with
        | none => rfl
        | some u => exact absurd (same.mp (by rw [found']; rfl)) Bool.false_ne_true
      rw [none']
  | some u =>
      obtain ⟨u', found'⟩ := Option.isSome_iff_exists.mp (same.mpr (by rw [found]; rfl))
      rw [found']
      obtain ⟨member, rfl⟩ := updateForSlot_mem found
      obtain ⟨member', slot'⟩ := updateForSlot_mem found'
      obtain ⟨shadow, here, next⟩ := l.revision u member
      obtain ⟨shadow', here', next'⟩ := l'.revision u' member'
      rw [slot', here] at here'
      obtain rfl := Option.some.inj here'
      rw [next] at next'
      exact congrArg Except.ok (Option.some.inj next').symm

/-- A recorded operation keeps the validations of the other buffers. -/
theorem PendingBuffers.Fresh.record (f : pending.Fresh E shadows memory) {op : BufferOp}
    {plan : BufferOnlyPlan} (recorded : Recorded shadows pending.plan plan memory (op.execute memory)) :
    (PendingBuffers.invalidateCanonicalValidation { pending with plan } op.target).Fresh E shadows
      (op.execute memory) where
  layers := recorded.layers
  validated validation member := by
    obtain ⟨member, other⟩ := List.mem_filter.mp member
    have other : validation.1 ≠ op.target := by simpa using other
    obtain ⟨revision, canonical⟩ := f.validated validation member
    have same : op.execute memory validation.1 = memory validation.1 :=
      Function.update_of_ne other ..
    refine ⟨?_, same ▸ canonical⟩
    have updates : (plan.updateForSlot validation.1).isSome ↔
        (pending.plan.updateForSlot validation.1).isSome := by
      rw [recorded.updates, same]
      exact ⟨fun h => h.resolve_right fun ne => ne rfl, .inl⟩
    exact (f.layers.revision_eq recorded.layers updates _ _).trans revision

/-- A write of the stream. -/
theorem PendingBuffers.Fresh.write (f : pending.Fresh E shadows memory) {table : ResourceTable}
    {buffer : BufferId} {offset : UInt64} {data : List UInt8} {allocated : PlanSite → Bool}
    {pending' : PendingBuffers}
    (h : (pending.write table shadows buffer offset data allocated :
      Except (IrSubmitError E) PendingBuffers) = .ok pending') :
    pending'.Fresh E shadows
      ((BufferOp.write buffer.index.toNat offset.toNat data).execute memory) := by
  rw [PendingBuffers.write, except_bind_eq_ok] at h
  obtain ⟨descriptor, -, h⟩ := h
  rw [except_bind_eq_ok] at h
  obtain ⟨_, -, h⟩ := h
  rw [except_bind_eq_ok] at h
  obtain ⟨stop, -, h⟩ := h
  rw [except_bind_eq_ok] at h
  obtain ⟨_, -, h⟩ := h
  rw [except_bind_eq_ok] at h
  obtain ⟨plan, recorded, h⟩ := h
  obtain rfl := Except.ok.inj h
  have step : Recorded shadows pending.plan plan memory
      ((BufferOp.write buffer.index.toNat offset.toNat data).execute memory) := f.layers.write recorded
  exact f.record step

/-- A copy of the stream. -/
theorem PendingBuffers.Fresh.copy (f : pending.Fresh E shadows memory) {table : ResourceTable}
    {source destination : BufferId} {sourceOffset destinationOffset size : UInt64}
    {allocated : PlanSite → Bool} {pending' : PendingBuffers}
    (h : (pending.copy table shadows source sourceOffset destination destinationOffset size allocated :
      Except (IrSubmitError E) PendingBuffers) = .ok pending') :
    pending'.Fresh E shadows ((BufferOp.copy source.index.toNat sourceOffset.toNat
      destination.index.toNat destinationOffset.toNat size.toNat).execute memory) := by
  rw [PendingBuffers.copy, except_bind_eq_ok] at h
  obtain ⟨descriptor, -, h⟩ := h
  rw [except_bind_eq_ok] at h
  obtain ⟨_, -, h⟩ := h
  rw [except_bind_eq_ok] at h
  obtain ⟨stop, -, h⟩ := h
  rw [except_bind_eq_ok] at h
  obtain ⟨_, -, h⟩ := h
  rw [except_bind_eq_ok] at h
  obtain ⟨plan, recorded, h⟩ := h
  obtain rfl := Except.ok.inj h
  have step : Recorded shadows pending.plan plan memory
      ((BufferOp.copy source.index.toNat sourceOffset.toNat destination.index.toNat
        destinationOffset.toNat size.toNat).execute memory) := f.layers.record recorded
  exact f.record step

/-! ## Draws -/

/-- Validating a buffer reads all of its records. -/
theorem PendingBuffers.Fresh.validateCanonical (f : pending.Fresh E shadows memory) {slot : Nat}
    (h : (pending.validateCanonical shadows slot : Except (IrSubmitError E) Unit) = .ok ()) :
    CanonicalBytes (memory slot) := by
  rw [PendingBuffers.validateCanonical, except_bind_eq_ok] at h
  obtain ⟨_, length, records⟩ := h
  rw [failIf_eq_ok, not_or, Classical.not_not, f.layers.length_eq] at length
  rw [forEach_eq_ok, f.layers.length_eq] at records
  refine ⟨length.1, length.2, fun i less => ?_⟩
  have record := records i (List.mem_range.mpr less)
  rw [f.layers.readRange_eq] at record
  exact validateCanonicalRecord_ok record

/-- Marking a buffer that was validated. -/
theorem PendingBuffers.Fresh.mark (f : pending.Fresh E shadows memory) {slot : Nat}
    {revision : UInt64} (current : (pending.revision shadows slot :
      Except (IrSubmitError E) UInt64) = .ok revision)
    (canonical : CanonicalBytes (memory slot)) {allocated : Bool} {pending' : PendingBuffers}
    (h : (pending.markCanonicalValidated slot revision allocated :
      Except (IrSubmitError E) PendingBuffers) = .ok pending') :
    pending'.Fresh E shadows memory := by
  rw [PendingBuffers.markCanonicalValidated] at h
  split at h
  · obtain rfl := Except.ok.inj h
    exact f
  split at h
  · cases h
  · obtain rfl := Except.ok.inj h
    refine ⟨f.layers, fun validation member => ?_⟩
    rcases List.mem_append.mp member with old | new
    · exact f.validated validation old
    · obtain rfl := List.mem_singleton.mp new
      exact ⟨current, canonical⟩

/-- A buffer that needs no validation was validated. -/
theorem PendingBuffers.Fresh.canonical_of_not_needed {resources : IrResources}
    (fresh : resources.Fresh) (f : pending.Fresh E resources.bufferShadows memory) {slot : Nat}
    {revision : UInt64} (current : (pending.revision resources.bufferShadows slot :
      Except (IrSubmitError E) UInt64) = .ok revision)
    (h : pending.canonicalNeedsValidation resources slot revision = false) :
    CanonicalBytes (memory slot) := by
  rw [PendingBuffers.canonicalNeedsValidation, Bool.and_eq_false_iff, bne_eq_false_iff_eq,
    Bool.not_eq_false', List.contains_iff_mem] at h
  rcases h with accepted | pendingOnly
  · rw [PendingBuffers.revision] at current
    cases found : pending.plan.updateForSlot slot with
    | none =>
        rw [found] at current
        simp only [okOr_eq_ok, Option.map_eq_some_iff] at current
        obtain ⟨shadow, here, rfl⟩ := current
        rw [f.layers.untouched slot found]
        exact (fresh.validated slot _ shadow accepted here).2 rfl
    | some u =>
        -- The pending revision is newer than every accepted one.
        rw [found] at current
        obtain rfl := Except.ok.inj current
        obtain ⟨member, rfl⟩ := updateForSlot_mem found
        obtain ⟨shadow, here, next⟩ := f.layers.revision u member
        have older := (fresh.validated _ _ shadow accepted here).1
        rw [checkedAdd64_toNat next] at older
        exact absurd older (Nat.not_succ_le_self _)
  · exact (f.validated _ pendingOnly).2

/-- A decoded draw keeps the invariant, and reads canonical records if its vertices stay
in persistent storage. -/
theorem PendingBuffers.Fresh.draw {resources : IrResources} (fresh : resources.Fresh)
    (f : pending.Fresh E resources.bufferShadows memory) {table : ResourceTable}
    {call : DrawCall E V} {vertices : DecodedVertices V} {pending' : PendingBuffers}
    (h : decodeDrawVertices table resources pending call = .ok (vertices, pending')) :
    pending'.Fresh E resources.bufferShadows memory ∧
      ∀ binding first count, vertices = .persistent binding first count →
        CanonicalBytes (memory binding.buffer.slot) := by
  rw [decodeDrawVertices, except_bind_eq_ok] at h
  obtain ⟨state, -, h⟩ := h
  rw [except_bind_eq_ok] at h
  obtain ⟨descriptor, -, h⟩ := h
  split at h
  · rw [decodePersistent, except_bind_eq_ok] at h
    obtain ⟨revision, current, h⟩ := h
    simp only at h
    rw [except_bind_eq_ok] at h
    obtain ⟨_, -, h⟩ := h
    cases needed : pending.canonicalNeedsValidation resources state.buffer.index.toNat revision with
    | true =>
        rw [needed, if_pos rfl, except_bind_eq_ok] at h
        obtain ⟨_, valid, h⟩ := h
        rw [except_bind_eq_ok] at h
        obtain ⟨marked, hmarked, h⟩ := h
        have canonical := f.validateCanonical valid
        cases h
        refine ⟨f.mark current canonical hmarked, fun binding first count same => ?_⟩
        cases same
        exact canonical
    | false =>
        rw [needed, if_neg Bool.false_ne_true] at h
        cases h
        refine ⟨f, fun binding first count same => ?_⟩
        cases same
        exact f.canonical_of_not_needed fresh current needed
  · rw [decodeInline, except_bind_eq_ok] at h
    obtain ⟨_, -, h⟩ := h
    rw [except_bind_eq_ok] at h
    obtain ⟨_, -, h⟩ := h
    rw [except_bind_eq_ok] at h
    obtain ⟨_, -, h⟩ := h
    rw [except_bind_eq_ok] at h
    obtain ⟨_, -, h⟩ := h
    rw [except_bind_eq_ok] at h
    obtain ⟨_, -, h⟩ := h
    rw [except_bind_eq_ok] at h
    obtain ⟨_, -, h⟩ := h
    cases h
    exact ⟨f, fun binding first count same => by cases same⟩

end Pending

/-! ## Planning a stream -/

/-- The buffer operations of some commands. -/
def bufferOps (commands : List (StreamCommand E V)) : List BufferOp :=
  commands.filterMap StreamCommand.bufferOp

theorem executeAll_bufferOps_concat (commands : List (StreamCommand E V))
    (command : StreamCommand E V) (memory : Memory) :
    BufferOp.executeAll (bufferOps (commands ++ [command])) memory =
      (command.bufferOp.elim id BufferOp.execute) (BufferOp.executeAll (bufferOps commands) memory) := by
  rw [bufferOps, List.filterMap_append, BufferOp.executeAll, List.foldl_append]
  cases h : command.bufferOp with
  | none => simp [h, bufferOps, BufferOp.executeAll]
  | some op => simp [h, bufferOps, BufferOp.executeAll]

/-- Each command keeps the invariant of the pending stream. -/
theorem Planner.step_fresh {table : ResourceTable} {resources : IrResources}
    (fresh : resources.Fresh) {planner planner' : Planner} {memory : Memory}
    (f : planner.pending.Fresh E resources.bufferShadows memory) {command : StreamCommand E V}
    (h : planner.step table resources command = .ok planner') :
    planner'.pending.Fresh E resources.bufferShadows
      ((command.bufferOp.elim id BufferOp.execute) memory) := by
  cases command with
  | writeBuffer buffer offset data allocated =>
      rw [Planner.step, except_bind_eq_ok] at h
      obtain ⟨_, -, h⟩ := h
      rw [except_bind_eq_ok] at h
      obtain ⟨pending, written, h⟩ := h
      cases h
      exact f.write written
  | copyBufferToBuffer source sourceOffset destination destinationOffset size allocated =>
      rw [Planner.step, except_bind_eq_ok] at h
      obtain ⟨_, -, h⟩ := h
      rw [except_bind_eq_ok] at h
      obtain ⟨pending, copied, h⟩ := h
      cases h
      exact f.copy copied
  | beginRenderPass answer =>
      rw [Planner.step, except_bind_eq_ok] at h
      obtain ⟨_, -, h⟩ := h
      cases h
      exact f
  | draw call =>
      rw [Planner.step, except_bind_eq_ok] at h
      obtain ⟨decoded, drawn, h⟩ := h
      cases h
      exact (f.draw fresh drawn).1
  | other answer =>
      rw [Planner.step, except_bind_eq_ok] at h
      obtain ⟨_, -, h⟩ := h
      cases h
      exact f

theorem planStream_fresh {table : ResourceTable} {resources : IrResources}
    (fresh : resources.Fresh) {commands : List (StreamCommand E V)} {planner : Planner}
    (h : planStream table resources commands = .ok planner) :
    planner.pending.Fresh E resources.bufferShadows
      (BufferOp.executeAll (bufferOps commands) (baseOf resources.bufferShadows)) := by
  refine foldlM_ok (fun done (planner : Planner) =>
    planner.pending.Fresh E resources.bufferShadows
      (BufferOp.executeAll (bufferOps done) (baseOf resources.bufferShadows))) ?_ ?_ h
  · exact PendingBuffers.Fresh.new resources.bufferShadows
  · intro done command planner planner' f step
    rw [executeAll_bufferOps_concat]
    exact Planner.step_fresh fresh f step

/-! ## Accepting a stream -/

/-- A cleared shadow only lost its delta. -/
theorem clearUploads_cases {slots : List Nat} {shadows : List BufferShadow} {slot : Nat}
    {shadow : BufferShadow} (h : (clearUploads slots shadows)[slot]? = some shadow) :
    ∃ before, shadows[slot]? = some before ∧
      (shadow = before ∨ shadow = { before with upload := none }) := by
  have kept : ∀ (slots : List Nat) (shadow : BufferShadow),
      slots.foldl (fun (shadow : BufferShadow) cleared =>
        if cleared = slot then { shadow with upload := none } else shadow) shadow = shadow ∨
      slots.foldl (fun (shadow : BufferShadow) cleared =>
        if cleared = slot then { shadow with upload := none } else shadow) shadow =
          { shadow with upload := none } := by
    intro slots
    induction slots with
    | nil => exact fun shadow => .inl rfl
    | cons cleared rest ih =>
        intro shadow
        rw [List.foldl_cons]
        split
        · rcases ih { shadow with upload := none } with same | same <;> exact .inr same
        · exact ih shadow
  have cleared := getElem?_foldl_modify (fun cleared => cleared) (fun _ (shadow : BufferShadow) =>
    { shadow with upload := none }) slots shadows slot
  have same : (clearUploads slots shadows)[slot]? = _ := cleared
  have found := same.symm.trans h
  obtain ⟨before, here, rfl⟩ := Option.map_eq_some_iff.mp found
  exact ⟨before, here, kept slots before⟩

theorem clearUploads_spec {slots : List Nat} {shadows : List BufferShadow} {slot : Nat}
    {shadow : BufferShadow} (h : (clearUploads slots shadows)[slot]? = some shadow) :
    ∃ before, shadows[slot]? = some before ∧ before.revision = shadow.revision ∧
      baseOf (clearUploads slots shadows) slot = baseOf shadows slot := by
  obtain ⟨before, here, rfl | rfl⟩ := clearUploads_cases h
  · exact ⟨shadow, here, rfl, by rw [baseOf_eq h, baseOf_eq here]⟩
  · exact ⟨before, here, rfl, by rw [baseOf_eq h, baseOf_eq here]⟩

/-- A committed revision is one of the validations, or was there before. -/
theorem committed_cases {resources : IrResources} {validations : List (Nat × UInt64)} {slot : Nat}
    {c : UInt64}
    (h : (resources.commitCanonicalValidations validations).canonicalBufferRevision slot = some c) :
    (slot, c) ∈ validations ∨ resources.canonicalBufferRevision slot = some c := by
  suffices general : ∀ (validations : List (Nat × UInt64)) (revisions : List (Option UInt64)),
      ((validations.foldl (fun revisions validation =>
        revisions.set validation.1 (some validation.2)) revisions)[slot]?).join = some c →
      (slot, c) ∈ validations ∨ (revisions[slot]?).join = some c from
    general validations resources.canonicalBufferRevisions h
  intro validations
  induction validations with
  | nil => exact fun revisions found => .inr found
  | cons validation rest ih =>
      intro revisions found
      rcases ih _ found with later | here
      · exact .inl (List.mem_cons_of_mem _ later)
      · rw [List.getElem?_set] at here
        split at here
        · rename_i same
          split at here
          · have value : validation.2 = c := Option.some.inj here
            subst same value
            exact .inl List.mem_cons_self
          · cases here
        · exact .inr here

theorem IrResources.Fresh.new : IrResources.new.Fresh where
  validated slot c shadow found _ := by
    rw [IrResources.canonicalBufferRevision, IrResources.new, List.getElem?_replicate] at found
    split at found <;> cases found

/-- Replacing shadows by published ones keeps what was validated before. -/
theorem Publishes.validated {shadows published : List BufferShadow} {memory : Memory}
    {touched : Nat → Prop} (p : Publishes shadows published memory touched) {slot : Nat}
    {c : UInt64} (before : ∀ shadow, shadows[slot]? = some shadow → c.toNat ≤ shadow.revision.toNat ∧
      (c = shadow.revision → CanonicalBytes (baseOf shadows slot)))
    {shadow : BufferShadow} (here : published[slot]? = some shadow) :
    c.toNat ≤ shadow.revision.toNat ∧
      (c = shadow.revision → CanonicalBytes (baseOf published slot)) := by
  by_cases changed : touched slot
  · obtain ⟨old, hold⟩ : ∃ old, shadows[slot]? = some old := by
      have inside : slot < published.length := (List.getElem?_eq_some_iff.mp here).1
      exact ⟨_, List.getElem?_eq_getElem (p.length ▸ inside)⟩
    have next := p.bumped slot changed
    rw [revisionOf, revisionOf, hold, here, Option.elim_some, Option.elim_some] at next
    have later := checkedAdd64_toNat next
    have older := (before old hold).1
    have one : (1 : UInt64).toNat = 1 := rfl
    refine ⟨by omega, fun same => ?_⟩
    rw [same] at older
    omega
  · have same := p.untouched slot changed
    rw [same] at here
    have kept : baseOf published slot = baseOf shadows slot := by rw [baseOf, baseOf, same]
    rw [kept]
    exact before shadow here

/-- The revision that a pending stream gives a buffer is the one that is published. -/
theorem Layers.published_revision {shadows : List BufferShadow} {pending : PendingBuffers}
    {memory : Memory} (l : Layers shadows pending.plan memory) {published : List BufferShadow}
    (p : Publishes shadows published memory fun slot => (pending.plan.updateForSlot slot).isSome)
    {slot : Nat} {revision : UInt64}
    (current : (pending.revision shadows slot : Except (IrSubmitError E) UInt64) = .ok revision) :
    revisionOf published slot = revision := by
  rw [PendingBuffers.revision] at current
  cases found : pending.plan.updateForSlot slot with
  | none =>
      rw [found] at current
      simp only [okOr_eq_ok, Option.map_eq_some_iff] at current
      obtain ⟨shadow, here, rfl⟩ := current
      have same := p.untouched slot (by rw [found]; exact Bool.false_ne_true)
      rw [revisionOf, same, here, Option.elim_some]
  | some u =>
      rw [found] at current
      obtain rfl := Except.ok.inj current
      obtain ⟨member, rfl⟩ := updateForSlot_mem found
      obtain ⟨shadow, here, next⟩ := l.revision u member
      have bumped := p.bumped u.slot (by rw [found]; rfl)
      rw [revisionOf, here, Option.elim_some, next] at bumped
      exact (Option.some.inj bumped).symm

theorem IrResources.Fresh.submit {resources : IrResources} (fresh : resources.Fresh)
    (table : ResourceTable) (commands : List (StreamCommand E V)) (allocated : Nat → Bool)
    (outcome : Except (IrSubmitError E) Unit) (prepared : List Nat) :
    (resources.submit table commands allocated outcome prepared).Fresh := by
  rw [IrResources.submit]
  cases planned : planStream table resources commands with
  | error error => exact fresh
  | ok planner =>
      have f := planStream_fresh fresh planned
      simp only
      cases room : (planner.pending.plan.reserve resources.bufferShadows allocated :
          Except (IrSubmitError E) PreparedBufferOnlyPlan) with
      | error error => exact fresh
      | ok plan =>
          have p := f.layers.publishes room
          cases outcome with
          | error error => exact fresh
          | ok _ =>
              obtain ⟨next, accepted⟩ : ∃ next, plan.publish resources.bufferShadows
                (.ok () : Except (IrSubmitError E) Unit) = (.ok (), next) := ⟨_, rfl⟩
              simp only [accepted] at p ⊢
              refine ⟨fun slot c shadow found here => ?_⟩
              obtain ⟨before, published, revision, contents⟩ := clearUploads_spec here
              show _ ∧ (_ → CanonicalBytes (baseOf (clearUploads prepared next) slot))
              rw [← revision, contents]
              rcases committed_cases found with validated | old
              · obtain ⟨current, canonical⟩ := f.validated _ validated
                have same := f.layers.published_revision p current
                rw [revisionOf, published, Option.elim_some] at same
                refine ⟨by rw [same], fun _ => ?_⟩
                rw [p.bytes]
                exact canonical
              · exact p.validated (fresh.validated slot c · old) published

theorem IrResources.Fresh.submitBuffers {resources : IrResources} (fresh : resources.Fresh)
    (ops : List (BufferOp × (PlanSite → Bool))) (allocated : Nat → Bool)
    (outcome : Except (IrSubmitError E) Unit) :
    (resources.submitBuffers ops allocated outcome).Fresh := by
  rw [IrResources.submitBuffers]
  cases recorded : (ops.foldlM (fun plan entry =>
      entry.1.record resources.bufferShadows entry.2 plan) .empty :
      Except (IrSubmitError E) BufferOnlyPlan) with
  | error error => exact fresh
  | ok plan =>
      obtain ⟨layers, -⟩ := recordAll_layers recorded
      simp only
      cases room : (plan.reserve resources.bufferShadows allocated :
          Except (IrSubmitError E) PreparedBufferOnlyPlan) with
      | error error => exact fresh
      | ok prepared =>
          cases outcome with
          | error error => exact fresh
          | ok _ =>
              have p := layers.publishes room
              exact ⟨fun slot c shadow found here =>
                p.validated (fresh.validated slot c · found) here⟩

/-- Setting a slot's validation to none. -/
theorem IrResources.Fresh.forget {resources : IrResources} (fresh : resources.Fresh) (slot : Nat)
    {shadows : List BufferShadow}
    (others : ∀ other, other ≠ slot → shadows[other]? = resources.bufferShadows[other]?) :
    IrResources.Fresh ⟨shadows, resources.canonicalBufferRevisions.set slot none⟩ where
  validated other c shadow found here := by
    rw [IrResources.canonicalBufferRevision, List.getElem?_set] at found
    split at found
    · split at found <;> cases found
    · rename_i ne
      have same := others other (Ne.symm ne)
      have kept : baseOf shadows other = baseOf resources.bufferShadows other := by
        rw [baseOf, baseOf, same]
      rw [same] at here
      exact kept ▸ fresh.validated other c shadow found here

theorem IrResources.Fresh.publishComputeShadow {resources : IrResources} (fresh : resources.Fresh)
    (slot : Nat) (bytes : List UInt8) (revision : UInt64) :
    (resources.publishComputeShadow slot bytes revision).Fresh :=
  fresh.forget slot fun _ other => List.getElem?_modify_ne _ _ (Ne.symm other)

theorem IrResources.Fresh.submitCompute {resources : IrResources} (fresh : resources.Fresh)
    (results : List (Nat × List UInt8)) : (resources.submitCompute results).Fresh := by
  simp only [IrResources.submitCompute]
  split
  · exact fresh
  · rename_i published _
    refine List.foldlRecOn published _ (motive := fun next => IrResources.Fresh next) fresh ?_
    intro next f entry _
    exact f.publishComputeShadow ..

/-- Each event keeps the invariant. -/
theorem IrResources.Fresh.step {resources : IrResources} (fresh : resources.Fresh)
    (event : BufferEvent E V) : (resources.step event).Fresh := by
  cases event with
  | stream table commands allocated outcome prepared =>
      exact fresh.submit table commands allocated outcome prepared
  | buffers ops allocated outcome => exact fresh.submitBuffers ops allocated outcome
  | compute results => exact fresh.submitCompute results
  | release slot => exact fresh.forget slot fun _ other => List.getElem?_set_ne (Ne.symm other)

theorem IrResources.Fresh.run {resources : IrResources} (fresh : resources.Fresh)
    (events : List (BufferEvent E V)) : (resources.run events).Fresh :=
  List.foldlRecOn events _ fresh fun _ f event _ => f.step event

/-! ## Draws of a run -/

/-- Validation is never stale: after any events, whenever a draw of a stream is lowered
to a persistent canonical binding, the buffer as the draw sees it, its accepted bytes
under the writes and copies recorded before, is made of canonical records. -/
theorem canonical_draws_validated (events : List (BufferEvent E V)) (table : ResourceTable)
    (before : List (StreamCommand E V)) {planner : Planner} {call : DrawCall E V}
    {binding : IrVertexBufferBinding} {first count : Nat} {pending : PendingBuffers}
    (planned : planStream table (IrResources.new.run events) before = .ok planner)
    (drawn : decodeDrawVertices table (IrResources.new.run events) planner.pending call =
      .ok (.persistent binding first count, pending)) :
    CanonicalBytes (BufferOp.executeAll (bufferOps before)
      (baseOf (IrResources.new.run events).bufferShadows) binding.buffer.slot) := by
  have fresh := IrResources.Fresh.new.run events
  exact ((planStream_fresh fresh planned).draw fresh drawn).2 binding first count rfl

/-- A buffer of three canonical vertices. -/
def triangleBuffer : BufferDesc := ⟨120, .union .VERTEX .COPY_DST, by decide⟩

theorem triangleOwner_ne : (1 : UInt64) ≠ 0 := by decide

/-- Its table. -/
def triangleTable : ResourceTable :=
  (ResourceTable.define .buffer true triangleBuffer (ResourceTable.new 1 triangleOwner_ne)).2

/-- A draw of the triangle. -/
def triangleDraw : DrawCall Unit Unit where
  state := .ok ⟨⟨.vertexColor, 40, ⟨0, .float32x4, 0⟩, some ⟨1, .float32x4, 16⟩,
    some ⟨2, .float32x2, 32⟩⟩, ⟨1, 0, 0⟩, 0⟩
  firstVertex := 0
  vertexCount := 3
  decode := fun _ => .ok []
  memory := ⟨true, true⟩

/-- The upload of the triangle. -/
def triangleUpload : List (StreamCommand Unit Unit) :=
  [.writeBuffer ⟨1, 0, 0⟩ 0 (List.replicate 120 0) fun _ => true, .beginRenderPass (.ok ())]

set_option maxRecDepth 20000 in
theorem canonical_draws_validated_triangle :
    CanonicalBytes (BufferOp.executeAll (bufferOps triangleUpload)
      (baseOf IrResources.new.bufferShadows) 0) :=
  @canonical_draws_validated Unit Unit [] triangleTable triangleUpload _ triangleDraw
    ⟨⟨0, 120, 1⟩, 0⟩ 0 3 _ rfl rfl

end Sgfx.Virgl
