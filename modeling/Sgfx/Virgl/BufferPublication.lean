import Sgfx.Virgl.BufferRecording

/-!
# Publishing a plan

Publication grows the buffers of the updates, replays the writes in the order in which
they were recorded, and stamps the new revisions.  A fold that modifies one slot at a
time is read slot by slot, so that each of the three loops comes down to what happens
to one shadow.

## Main Definitions

* `BufferOp.recordAll`, `BufferOp.executeAll` — a whole stream
* `BufferOp.Touched` — an operation of the stream changed a buffer

## Main Results

* `recordAll_layers` — `Layers` after a whole stream
* `Layers.publish_spec`, `buffer_plan_refines`
* `not_revision_iff_changed` — the revision also grows when a change is taken back
-/

namespace Sgfx.Virgl

open Bytes Ranges Ranges.RangeIndex

namespace BufferOp

/-- Record a stream; every operation comes with the answers of the allocator. -/
def recordAll {E : Type} (shadows : List BufferShadow) (ops : List (BufferOp × (PlanSite → Bool)))
    (plan : BufferOnlyPlan) : Except (IrSubmitError E) BufferOnlyPlan :=
  ops.foldlM (fun plan entry => entry.1.record shadows entry.2 plan) plan

/-- Execute a stream directly on zero-extended arrays. -/
def executeAll (ops : List BufferOp) (memory : Memory) : Memory :=
  ops.foldl (fun memory op => op.execute memory) memory

/-- Some operation of a stream changes a buffer. -/
def Touched (ops : List BufferOp) (memory : Memory) (slot : Nat) : Prop :=
  ∃ before op after, ops = before ++ op :: after ∧
    op.execute (executeAll before memory) slot ≠ executeAll before memory slot

theorem executeAll_concat (ops : List BufferOp) (op : BufferOp) (memory : Memory) :
    executeAll (ops ++ [op]) memory = op.execute (executeAll ops memory) := by
  rw [executeAll, List.foldl_append]
  rfl

theorem touched_concat {ops : List BufferOp} {op : BufferOp} {memory : Memory} {slot : Nat} :
    Touched (ops ++ [op]) memory slot ↔
      Touched ops memory slot ∨
        op.execute (executeAll ops memory) slot ≠ executeAll ops memory slot := by
  constructor
  · rintro ⟨before, other, after, split, changes⟩
    rcases List.eq_nil_or_concat after with rfl | ⟨init, last, rfl⟩
    · obtain ⟨rfl, same⟩ := List.append_inj' split rfl
      obtain rfl := List.singleton_inj.mp same
      exact .inr changes
    · rw [List.concat_eq_append, ← List.cons_append, ← List.append_assoc] at split
      exact .inl ⟨before, other, init, (List.append_inj' split rfl).1, changes⟩
  · rintro (⟨before, other, after, rfl, changes⟩ | changes)
    · exact ⟨before, other, after ++ [op], by rw [List.append_assoc, List.cons_append], changes⟩
    · exact ⟨ops, op, [], rfl, changes⟩

end BufferOp

variable {E : Type} {shadows : List BufferShadow} {plan : BufferOnlyPlan} {memory : Memory}

/-- After any stream the plan stands for the memory that executing it gives, and has an
update of exactly the buffers that were changed on the way. -/
theorem recordAll_layers {ops : List (BufferOp × (PlanSite → Bool))}
    (h : (BufferOp.recordAll shadows ops .empty : Except (IrSubmitError E) _) = .ok plan) :
    Layers shadows plan (BufferOp.executeAll (ops.map Prod.fst) (baseOf shadows)) ∧
      ∀ slot, (plan.updateForSlot slot).isSome ↔
        BufferOp.Touched (ops.map Prod.fst) (baseOf shadows) slot := by
  refine foldlM_ok (fun done plan =>
    Layers shadows plan (BufferOp.executeAll (done.map Prod.fst) (baseOf shadows)) ∧
      ∀ slot, (plan.updateForSlot slot).isSome ↔
        BufferOp.Touched (done.map Prod.fst) (baseOf shadows) slot) ?_ ?_ h
  · refine ⟨Layers.empty shadows, fun slot => ⟨fun some => (by cases some), ?_⟩⟩
    rintro ⟨before, op, after, split, -⟩
    exact absurd split.symm (List.append_ne_nil_of_right_ne_nil _ (List.cons_ne_nil _ _))
  · rintro done entry plan plan' ⟨layers, touched⟩ recorded
    have step := layers.record recorded
    rw [List.map_append, List.map_singleton, BufferOp.executeAll_concat]
    refine ⟨step.layers, fun slot => ?_⟩
    rw [step.updates, touched, BufferOp.touched_concat]

/-- A stream of operations in range is recorded, as long as there is memory. -/
theorem recordAll_ok {ops : List BufferOp} (inRange : ∀ op ∈ ops, op.InRange shadows) :
    ∃ plan, (BufferOp.recordAll shadows (ops.map fun op => (op, fun _ => true)) .empty :
      Except (IrSubmitError E) _) = .ok plan := by
  suffices general : ∀ (ops : List BufferOp) (plan : BufferOnlyPlan) (memory : Memory),
      (∀ op ∈ ops, op.InRange shadows) → Layers shadows plan memory →
        ∃ plan', (BufferOp.recordAll shadows (ops.map fun op => (op, fun _ => true)) plan :
          Except (IrSubmitError E) _) = .ok plan' from
    general ops .empty _ inRange (Layers.empty shadows)
  intro ops
  induction ops with
  | nil => exact fun plan _ _ _ => ⟨plan, rfl⟩
  | cons op rest ih =>
      intro plan memory inRange layers
      refine except_bind_ok (layers.record_ok (inRange op List.mem_cons_self)) fun plan' recorded => ?_
      exact ih plan' _ (fun other h => inRange other (List.mem_cons_of_mem _ h))
        (layers.record recorded).layers

/-! ## Folds over slots -/

/-- A fold that modifies one slot at a time, read at a slot. -/
theorem getElem?_foldl_modify {α β : Type} (key : α → Nat) (f : α → β → β) (items : List α)
    (slots : List β) (i : Nat) :
    (items.foldl (fun slots a => slots.modify (key a) (f a)) slots)[i]? =
      (slots[i]?).map fun b => items.foldl (fun b a => if key a = i then f a b else b) b := by
  induction items generalizing slots with
  | nil => exact Option.map_id'.symm
  | cons a rest ih =>
      rw [List.foldl_cons, ih, List.getElem?_modify]
      cases slots[i]? <;> rfl

/-- If only one item has the key, the fold is that item. -/
theorem foldl_unique {β : Type} {updates : List BufferRangeUpdate}
    (sorted : updates.Pairwise fun u v => u.slot < v.slot) (f : BufferRangeUpdate → β → β)
    (slot : Nat) (b : β) :
    updates.foldl (fun b u => if u.slot = slot then f u b else b) b =
      (updates.find? fun u => u.slot == slot).elim b fun u => f u b := by
  have skip : ∀ (rest : List BufferRangeUpdate) (b : β), (∀ u ∈ rest, u.slot ≠ slot) →
      rest.foldl (fun b u => if u.slot = slot then f u b else b) b = b := by
    intro rest b other
    refine List.foldlRecOn rest _ (motive := fun c => c = b) rfl ?_
    intro c same u member
    rw [if_neg (other u member), same]
  induction updates with
  | nil => rfl
  | cons u rest ih =>
      obtain ⟨first, rest_sorted⟩ := List.pairwise_cons.mp sorted
      rw [List.foldl_cons]
      by_cases here : u.slot = slot
      · have found : (u :: rest).find? (fun u => u.slot == slot) = some u :=
          List.find?_cons_of_pos (beq_iff_eq.mpr here)
        rw [if_pos here, found, Option.elim_some]
        exact skip rest _ fun v hv same =>
          absurd (first v hv) (by rw [here, same]; exact Nat.lt_irrefl _)
      · have found : (u :: rest).find? (fun u => u.slot == slot) =
            rest.find? fun u => u.slot == slot :=
          List.find?_cons_of_neg (by rw [beq_iff_eq]; exact here)
        rw [if_neg here, found]
        exact ih rest_sorted

/-! ## Reserving -/

/-- What `reserve` does to an update. -/
def reservedUpdate (shadows : List BufferShadow) (update : BufferRangeUpdate) : BufferRangeUpdate :=
  match (shadows[update.slot]?).bind BufferShadow.bytes with
  | some _ => update
  | none => { update with fresh := some [] }

theorem mapM_eq_map {ε α β : Type} {f : α → Except ε β} {g : α → β} {items : List α}
    {results : List β} (same : ∀ a b, f a = .ok b → b = g a) (h : items.mapM f = .ok results) :
    results = items.map g := by
  induction items generalizing results with
  | nil =>
      rw [List.mapM_nil] at h
      obtain rfl := Except.ok.inj h
      rfl
  | cons a rest ih =>
      rw [List.mapM_cons, except_bind_eq_ok] at h
      obtain ⟨b, hb, h⟩ := h
      rw [except_bind_eq_ok] at h
      obtain ⟨bs, hbs, h⟩ := h
      obtain rfl := Except.ok.inj h
      rw [same a b hb, ih hbs, List.map_cons]

theorem reserve_spec {allocated : Nat → Bool} {prepared : PreparedBufferOnlyPlan}
    (h : (plan.reserve shadows allocated : Except (IrSubmitError E) _) = .ok prepared) :
    prepared.plan = ⟨plan.updates.map (reservedUpdate shadows), plan.writes⟩ := by
  rw [BufferOnlyPlan.reserve, except_bind_eq_ok] at h
  obtain ⟨updates, hupdates, h⟩ := h
  obtain rfl := Except.ok.inj h
  rw [mapM_eq_map (g := reservedUpdate shadows) ?_ hupdates]
  intro u v hv
  split at hv
  · cases hv
  · rw [reservedUpdate]
    cases hbytes : (shadows[u.slot]?).bind BufferShadow.bytes with
    | some bytes =>
        rw [hbytes] at hv
        exact (Except.ok.inj hv).symm
    | none =>
        rw [hbytes] at hv
        exact (Except.ok.inj hv).symm

theorem reserve_ok :
    ∃ prepared, (plan.reserve shadows fun _ => true : Except (IrSubmitError E) _) = .ok prepared := by
  have each : ∀ updates : List BufferRangeUpdate, ∃ results,
      (updates.mapM fun update => if (fun _ : Nat => true) update.slot = false
        then (.error .outOfMemory : Except (IrSubmitError E) BufferRangeUpdate)
        else match (shadows[update.slot]?).bind BufferShadow.bytes with
          | some _ => pure update
          | none => pure { update with fresh := some [] }) = .ok results := by
    intro updates
    induction updates with
    | nil => exact ⟨[], rfl⟩
    | cons u rest ih =>
        rw [List.mapM_cons]
        refine except_bind_ok ?_ fun _ _ => except_bind_ok ih fun _ _ => ⟨_, rfl⟩
        simp only [Bool.true_eq_false, if_false]
        split <;> exact ⟨_, rfl⟩
  exact except_bind_ok (each plan.updates) fun _ _ => ⟨_, rfl⟩

theorem reservedUpdate_slot (shadows : List BufferShadow) (u : BufferRangeUpdate) :
    (reservedUpdate shadows u).slot = u.slot := by
  rw [reservedUpdate]
  split <;> rfl

theorem reservedUpdate_length (shadows : List BufferShadow) (u : BufferRangeUpdate) :
    (reservedUpdate shadows u).length = u.length := by
  rw [reservedUpdate]
  split <;> rfl

theorem reservedUpdate_revision (shadows : List BufferShadow) (u : BufferRangeUpdate) :
    (reservedUpdate shadows u).revision = u.revision := by
  rw [reservedUpdate]
  split <;> rfl

theorem reservedUpdate_upload (shadows : List BufferShadow) (u : BufferRangeUpdate) :
    (reservedUpdate shadows u).upload = u.upload := by
  rw [reservedUpdate]
  split <;> rfl

/-- After `reserve` an update has bytes to grow. -/
theorem reservedUpdate_bytes (shadows : List BufferShadow) (u : BufferRangeUpdate)
    {shadow : BufferShadow} (here : shadows[u.slot]? = some shadow) :
    shadow.bytes.or (reservedUpdate shadows u).fresh = some (baseOf shadows u.slot) := by
  rw [baseOf_eq here, reservedUpdate, here, Option.bind_some]
  cases shadow.bytes <;> rfl

/-! ## Publishing -/

open PreparedBufferOnlyPlan

/-- The three loops of `publish`, at one slot. -/
theorem publish_slot (prepared : PreparedBufferOnlyPlan) (shadows : List BufferShadow) (slot : Nat) :
    (prepared.publish shadows (.ok () : Except (IrSubmitError E) Unit)).2[slot]? =
      (shadows[slot]?).map fun shadow =>
        prepared.plan.updates.foldl (fun s u => if u.slot = slot then stampShadow u s else s)
          (prepared.plan.writes.foldl (fun s w => if w.slot = slot then replayShadow w s else s)
            (prepared.plan.updates.foldl (fun s u => if u.slot = slot then growShadow u s else s)
              shadow)) := by
  have stamped := getElem?_foldl_modify BufferRangeUpdate.slot stampShadow prepared.plan.updates
    (prepared.plan.writes.foldl replay (prepared.plan.updates.foldl grow shadows)) slot
  have replayed := getElem?_foldl_modify BufferRangeWrite.slot replayShadow prepared.plan.writes
    (prepared.plan.updates.foldl grow shadows) slot
  have grown := getElem?_foldl_modify BufferRangeUpdate.slot growShadow prepared.plan.updates
    shadows slot
  show (prepared.plan.updates.foldl stamp (prepared.plan.writes.foldl replay
    (prepared.plan.updates.foldl grow shadows)))[slot]? = _
  refine stamped.trans ?_
  refine (congrArg _ replayed).trans ?_
  refine (congrArg _ (congrArg _ grown)).trans ?_
  rw [Option.map_map, Option.map_map]
  rfl

/-- Replaying writes that fit. -/
theorem replay_spec {writes : List BufferRangeWrite} {slot length : Nat} {bytes : List UInt8}
    (fits : ∀ item ∈ writes, item.slot = slot → item.start + item.bytes.length ≤ length)
    (hlength : bytes.length = length) (revision : UInt64) (upload : Option IrBufferUpdate) :
    ∃ bytes', writes.foldl (fun s w => if w.slot = slot then replayShadow w s else s)
        ⟨some bytes, revision, upload⟩ = ⟨some bytes', revision, upload⟩ ∧
      bytes'.length = length ∧ ∀ i, get bytes' i = replayedAt writes slot i (get bytes i) := by
  induction writes generalizing bytes with
  | nil => exact ⟨bytes, rfl, hlength, fun i => rfl⟩
  | cons item rest ih =>
      have rest_fits : ∀ w ∈ rest, w.slot = slot → w.start + w.bytes.length ≤ length :=
        fun w member => fits w (List.mem_cons_of_mem _ member)
      rw [List.foldl_cons]
      by_cases here : item.slot = slot
      · have room : item.start + item.bytes.length ≤ bytes.length :=
          hlength ▸ fits item List.mem_cons_self here
        obtain ⟨bytes', folded, kept, read⟩ := ih rest_fits ((splice_length room).trans hlength)
        refine ⟨bytes', ?_, kept, fun i => ?_⟩
        · rw [if_pos here]
          exact folded
        · rw [read, get_splice room, replayedAt, replayedAt, List.foldl_cons, replayByte]
          congr 1
          refine if_congr ?_ rfl rfl
          exact ⟨fun covers => ⟨here, covers⟩, fun covers => covers.2⟩
      · obtain ⟨bytes', folded, kept, read⟩ := ih rest_fits hlength
        refine ⟨bytes', ?_, kept, fun i => ?_⟩
        · rw [if_neg here]
          exact folded
        · rw [read, replayedAt, replayedAt, List.foldl_cons, replayByte,
            if_neg fun h => here h.1]

/-- What an accepted publication leaves: an updated buffer has its final bytes and the
next revision, and every other shadow is as it was. -/
theorem Layers.publish_spec (l : Layers shadows plan memory) {allocated : Nat → Bool}
    {prepared : PreparedBufferOnlyPlan}
    (h : (plan.reserve shadows allocated : Except (IrSubmitError E) _) = .ok prepared)
    {slot : Nat} {shadow : BufferShadow} (here : shadows[slot]? = some shadow) :
    match plan.updateForSlot slot with
    | some u => ∃ shadow',
        (prepared.publish shadows (.ok () : Except (IrSubmitError E) Unit)).2[slot]? = some shadow' ∧
          shadow'.bytes = some (memory slot) ∧ shadow'.revision = u.revision ∧
          checkedAdd64 shadow.revision 1 = some u.revision ∧
          shadow'.upload = some (shadow.mergedUpload u.upload)
    | none =>
        (prepared.publish shadows (.ok () : Except (IrSubmitError E) Unit)).2[slot]? = some shadow := by
  have contents := reserve_spec h
  rw [publish_slot, here, Option.map_some, contents]
  simp only [List.foldl_map, reservedUpdate_slot]
  rw [foldl_unique l.sorted (fun u => growShadow (reservedUpdate shadows u)),
    foldl_unique l.sorted (fun u => stampShadow (reservedUpdate shadows u))]
  cases found : plan.updateForSlot slot with
  | some u =>
      obtain ⟨member, rfl⟩ := updateForSlot_mem found
      have layers := l.updated u member
      have found : plan.updates.find? (fun v => v.slot == u.slot) = some u := found
      rw [found, Option.elim_some, Option.elim_some, growShadow, reservedUpdate_bytes shadows u here,
        Option.map_some, reservedUpdate_length]
      have fits : ∀ item ∈ plan.writes, item.slot = u.slot →
          item.start + item.bytes.length ≤ u.length := by
        intro item hitem same
        obtain ⟨v, hv, slot_eq, bound⟩ := l.owned item hitem
        rwa [eq_of_slot_eq l.sorted hv member (slot_eq.trans same)] at bound
      obtain ⟨bytes', folded, kept, read⟩ := replay_spec fits
        (resize_length (baseOf shadows u.slot) u.length) shadow.revision shadow.upload
      rw [folded]
      obtain ⟨other, same, next⟩ := l.revision u member
      rw [here] at same
      obtain rfl := Option.some.inj same
      have final : bytes' = memory u.slot := by
        refine Bytes.ext (kept.trans layers.bytes_length.symm) fun i _ => ?_
        rw [read, get_resize layers.base_le, layers.replayed]
      refine ⟨_, rfl, congrArg some final, reservedUpdate_revision shadows u, next, ?_⟩
      show some (BufferShadow.mergedUpload _ (reservedUpdate shadows u).upload) = _
      rw [reservedUpdate_upload]
      rfl
  | none =>
      have found' : plan.updates.find? (fun v => v.slot == slot) = none := found
      rw [found', Option.elim_none, Option.elim_none]
      refine congrArg some (List.foldlRecOn plan.writes _ (motive := fun s => s = shadow) rfl ?_)
      intro s same item hitem
      obtain ⟨v, hv, slot_eq, -⟩ := l.owned item hitem
      rw [if_neg fun written => updateForSlot_eq_none_iff.mp found v hv (slot_eq.trans written), same]

/-! ## Whole streams -/

/-- The revision of a slot. -/
def revisionOf (shadows : List BufferShadow) (slot : Nat) : UInt64 :=
  (shadows[slot]?).elim 0 BufferShadow.revision

/-- A source reads some bytes: its length is theirs, and every range inside them is
copied, or borrowed, as it is there. -/
structure Reads (source : BufferSource) (bytes : List UInt8) : Prop where
  len : source.len = bytes.length
  copy : ∀ range : ByteRange, range.start ≤ range.stop → range.stop ≤ bytes.length →
    source.copyRange range (range.stop - range.start) =
      .ok (window bytes range.start (range.stop - range.start))
  direct : ∀ range part, source.directRange range = some part →
    part = window bytes range.start (range.stop - range.start)

/-- The shadows after a publication hold a memory: the slots that were touched have a
revision more, and the others are as they were. -/
structure Publishes (shadows published : List BufferShadow) (memory : Memory)
    (touched : Nat → Prop) : Prop where
  length : published.length = shadows.length
  bytes : ∀ slot, baseOf published slot = memory slot
  bumped : ∀ slot, touched slot →
    checkedAdd64 (revisionOf shadows slot) 1 = some (revisionOf published slot)
  untouched : ∀ slot, ¬ touched slot → published[slot]? = shadows[slot]?

theorem foldl_modify_length {α β : Type} (key : α → Nat) (f : α → β → β) (items : List α)
    (slots : List β) :
    (items.foldl (fun slots a => slots.modify (key a) (f a)) slots).length = slots.length := by
  induction items generalizing slots with
  | nil => rfl
  | cons a rest ih => rw [List.foldl_cons, ih, List.length_modify]

theorem Layers.publishes (l : Layers shadows plan memory) {allocated : Nat → Bool}
    {prepared : PreparedBufferOnlyPlan}
    (h : (plan.reserve shadows allocated : Except (IrSubmitError E) _) = .ok prepared) :
    Publishes shadows (prepared.publish shadows (.ok () : Except (IrSubmitError E) Unit)).2 memory
      fun slot => (plan.updateForSlot slot).isSome := by
  have length : (prepared.publish shadows (.ok () : Except (IrSubmitError E) Unit)).2.length =
      shadows.length := by
    refine (foldl_modify_length BufferRangeUpdate.slot stampShadow ..).trans ?_
    refine (foldl_modify_length BufferRangeWrite.slot replayShadow ..).trans ?_
    exact foldl_modify_length BufferRangeUpdate.slot growShadow ..
  -- Outside the table there are no shadows, and no updates.
  have outside : ∀ slot, shadows[slot]? = none → plan.updateForSlot slot = none ∧
      (prepared.publish shadows (.ok () : Except (IrSubmitError E) Unit)).2[slot]? = none := by
    intro slot none
    refine ⟨updateForSlot_eq_none_iff.mpr fun u hu same => ?_, ?_⟩
    · obtain ⟨shadow, here, -⟩ := l.revision u hu
      rw [same, none] at here
      cases here
    · rw [publish_slot, none, Option.map_none]
  constructor
  · exact length
  · intro slot
    cases here : shadows[slot]? with
    | none =>
        obtain ⟨untouched, published⟩ := outside slot here
        rw [l.untouched slot untouched, baseOf, baseOf, published, here]
    | some shadow =>
        have spec := l.publish_spec h here
        cases found : plan.updateForSlot slot with
        | some u =>
            rw [found] at spec
            obtain ⟨shadow', published, bytes, -⟩ := spec
            rw [baseOf_eq published, bytes, Option.getD_some]
        | none =>
            rw [found] at spec
            rw [l.untouched slot found, baseOf_eq spec, baseOf_eq here]
  · intro slot touched
    obtain ⟨u, found⟩ := Option.isSome_iff_exists.mp touched
    obtain ⟨member, rfl⟩ := updateForSlot_mem found
    obtain ⟨shadow, here, next⟩ := l.revision u member
    have spec := l.publish_spec h here
    rw [found] at spec
    obtain ⟨shadow', published, -, revision, -⟩ := spec
    rw [revisionOf, revisionOf, here, published, Option.elim_some, Option.elim_some, revision, next]
  · intro slot untouched
    have found : plan.updateForSlot slot = none := Option.not_isSome_iff_eq_none.mp untouched
    cases here : shadows[slot]? with
    | none => exact (outside slot here).2
    | some shadow =>
        have spec := l.publish_spec h here
        rwa [found] at spec

/-- A pending plan is sequential execution: after any stream of writes and copies that
it records, every way of reading through it gives what executing the stream directly on
zero-extended arrays gives, any further operation in range is recorded, publication
leaves these bytes and bumps the revision of the buffers that some operation changed,
and without acceptance the shadows stay as they are. -/
theorem buffer_plan_refines (shadows : List BufferShadow)
    (ops : List (BufferOp × (PlanSite → Bool)))
    (recorded : (BufferOp.recordAll shadows ops .empty : Except (IrSubmitError E) _) = .ok plan) :
    let memory := BufferOp.executeAll (ops.map Prod.fst) (baseOf shadows)
    (∀ slot start length, plan.readRange shadows slot start length = window (memory slot) start length) ∧
    (∀ slot range, range.start ≤ range.stop → range.stop ≤ (memory slot).length →
      (plan.range shadows slot range true : Except (IrSubmitError E) _) =
        .ok (window (memory slot) range.start (range.stop - range.start))) ∧
    (∀ slot shadow allocated source, shadows[slot]? = some shadow →
      (plan.source shadow slot allocated : Except (IrSubmitError E) _) = .ok source →
        Reads source (memory slot)) ∧
    (∀ op : BufferOp, op.InRange shadows →
      ∃ plan', (op.record shadows (fun _ => true) plan : Except (IrSubmitError E) _) = .ok plan') ∧
    ∀ allocated prepared,
      (plan.reserve shadows allocated : Except (IrSubmitError E) _) = .ok prepared →
        (∀ error, prepared.publish shadows (.error error : Except (IrSubmitError E) Unit) =
          (.error error, shadows)) ∧
        ∃ published, prepared.publish shadows (.ok () : Except (IrSubmitError E) Unit) =
            (.ok (), published) ∧
          Publishes shadows published memory
            (BufferOp.Touched (ops.map Prod.fst) (baseOf shadows)) := by
  obtain ⟨layers, touched⟩ := recordAll_layers recorded
  refine ⟨layers.readRange_eq, fun slot range order inside => layers.range_eq slot order inside,
    fun slot shadow allocated source here h => ?_, fun op inRange => layers.record_ok inRange,
    fun allocated prepared h => ⟨fun error => rfl, _, rfl, ?_⟩⟩
  · obtain ⟨len, copy, direct⟩ := layers.source_spec here h
    exact ⟨len, copy, direct⟩
  · have published := layers.publishes h
    have same : (fun slot => ((plan.updateForSlot slot).isSome : Prop)) =
        BufferOp.Touched (ops.map Prod.fst) (baseOf shadows) :=
      funext fun slot => propext (touched slot)
    exact same ▸ published

/-! ## Changes that are taken back -/

/-- One buffer of one byte. -/
def oneByte : List BufferShadow := [⟨some [0], 1, none⟩]

/-- Operations that change the byte and change it back. -/
def changeAndRevert : List BufferOp := [.write 0 0 [1], .write 0 0 [0]]

theorem changeAndRevert_inRange : ∀ op ∈ changeAndRevert, op.InRange oneByte := by
  intro op member
  simp only [changeAndRevert, List.mem_cons, List.not_mem_nil, or_false] at member
  rcases member with rfl | rfl <;> exact ⟨⟨_, rfl, by decide⟩, by decide⟩

/-- The witness of `buffer_plan_refines`: the byte reads as it was. -/
theorem buffer_plan_refines_oneByte :
    ∃ plan, (BufferOp.recordAll oneByte (changeAndRevert.map fun op => (op, fun _ => true)) .empty :
        Except (IrSubmitError Unit) _) = .ok plan ∧
      plan.readRange oneByte 0 0 2 = [0, 0] := by
  obtain ⟨plan, recorded⟩ := recordAll_ok (E := Unit) changeAndRevert_inRange
  exact ⟨plan, recorded, (buffer_plan_refines oneByte _ recorded).1 0 0 2⟩

/-- The revision is not bumped for exactly the buffers that publication changes: a
change that is taken back bumps it as well. -/
theorem not_revision_iff_changed :
    ¬ ∀ (shadows : List BufferShadow) (ops : List (BufferOp × (PlanSite → Bool)))
        (plan : BufferOnlyPlan) (allocated : Nat → Bool) (prepared : PreparedBufferOnlyPlan),
      (BufferOp.recordAll shadows ops .empty : Except (IrSubmitError Unit) _) = .ok plan →
      (plan.reserve shadows allocated : Except (IrSubmitError Unit) _) = .ok prepared →
      ∀ slot, revisionOf (prepared.publish shadows
            (.ok () : Except (IrSubmitError Unit) Unit)).2 slot ≠ revisionOf shadows slot ↔
          baseOf (prepared.publish shadows
            (.ok () : Except (IrSubmitError Unit) Unit)).2 slot ≠ baseOf shadows slot := by
  intro claim
  obtain ⟨plan, recorded⟩ := recordAll_ok (E := Unit) changeAndRevert_inRange
  obtain ⟨prepared, room⟩ := @reserve_ok Unit oneByte plan
  obtain ⟨layers, touched⟩ := recordAll_layers recorded
  have published := layers.publishes room
  have bumped := published.bumped 0 ((touched 0).mpr
    ⟨[], .write 0 0 [1], [.write 0 0 [0]], rfl, by decide⟩)
  refine (claim oneByte _ plan _ prepared recorded room 0).mp ?_ ?_
  · intro same
    rw [same] at bumped
    exact absurd bumped (by decide)
  · rw [published.bytes]
    decide

end Sgfx.Virgl
