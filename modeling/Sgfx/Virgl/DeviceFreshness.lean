import Sgfx.Virgl.BufferUploads
import Sgfx.Virgl.CanonicalFreshness

/-!
# Physical buffers and their revisions

What the draws of a stream find in a buffer are the bytes that the stream's plan gives
it, unless the recorded revision was misleading from the start: a synchronous stream
that fails after preparing a changed buffer leaves it at the revision that the next
stream to change the buffer is given as well.  That next stream uploads nothing, so its
draws are right exactly if it makes the same bytes of the buffer.

## Main Definitions

* `BufferWorld.Ahead` — physical storage has the revision that the next change is given
* `BufferStep.Compatible` — a step that changes no such buffer to other bytes
* `BufferWorld.Tracked` — the invariant

## Main Results

* `BufferWorld.Tracked.step` — each compatible step, and what its draws find
* `draws_find_planned` — every compatible run
* `not_draws_find_planned` — a failed stream followed by another one
-/

namespace Sgfx.Virgl

open Bytes

/-! ## Draws -/

section Sending

variable {uploaded : Nat → Option UInt64} {contents : Nat → List UInt8} {target : Nat → UInt64}
  {planned : Memory} {mode : SubmitMode} {native : NativeState}

/-- `Progress` while the events of a stream are sent: draws found what is planned. -/
structure NativeState.Shown (uploaded : Nat → Option UInt64) (contents : Nat → List UInt8)
    (target : Nat → UInt64) (planned : Memory) (mode : SubmitMode) (native : NativeState) : Prop where
  mode : native.Mode mode
  slots : ∀ slot,
    native.uploaded slot = uploaded slot ∧ native.contents slot = contents slot ∨
      native.uploaded slot = none ∨
        native.uploaded slot = some (target slot) ∧ Agrees (native.contents slot) (planned slot)
  observed : ∀ o ∈ native.settled.observed, Agrees o.contents (planned o.slot)

theorem NativeState.Progress.shown (p : native.Progress uploaded contents target planned mode) :
    native.Shown uploaded contents target planned mode where
  mode := p.mode
  slots := p.slots
  observed o member := by
    rw [p.undrawn.settled] at member
    cases member

/-- A buffer at the plan's revision has the plan's bytes, if it had so from the start. -/
theorem NativeState.Shown.agrees (s : native.Shown uploaded contents target planned mode)
    (fresh : ∀ slot, uploaded slot = some (target slot) → Agrees (contents slot) (planned slot))
    {slot : Nat} (h : native.uploaded slot = some (target slot)) :
    Agrees (native.contents slot) (planned slot) := by
  rcases s.slots slot with ⟨revision, bytes⟩ | forgotten | ⟨-, agrees⟩
  · rw [bytes]
    exact fresh slot (revision.symm.trans h)
  · rw [forgotten] at h
    cases h
  · exact agrees

/-- Sending an event changes no buffer, and its draws are only sent if every buffer they
bind is at the plan's revision. -/
theorem sendEvent_shown (s : native.Shown uploaded contents target planned mode)
    (fresh : ∀ slot, uploaded slot = some (target slot) → Agrees (contents slot) (planned slot))
    {event : StreamEvent IrBufferSpec}
    (revisions : ∀ spec ∈ event.bindings, spec.revision = target spec.slot) :
    Fallible.Ensures (sendEvent mode event) native
      (fun _ native' => native'.Shown uploaded contents target planned mode)
      fun _ native' => native'.Shown uploaded contents target planned mode := by
  cases event with
  | transfer answer =>
      rw [Fallible.Ensures, sendEvent, Fallible.lift_run]
      cases answer <;> exact s
  | pass specs answer =>
      refine .read_bind (.lift_bind (fun _ ready => .lift_bind (fun _ _ => .update ?_) fun _ _ => s)
        fun _ _ => s)
      show (native.submitted mode [.draws specs]).Shown uploaded contents target planned mode
      have settled := NativeState.settled_submitted s.mode [.draws specs]
      have memory : ∀ slot, (native.submitted mode [.draws specs]).contents slot =
          native.contents slot := by
        intro slot
        rw [NativeState.contents, settled]
        rfl
      have revision : ∀ slot, (native.submitted mode [.draws specs]).uploaded slot =
          native.uploaded slot := by
        intro slot
        rw [NativeState.uploaded, NativeState.submitted_buffers]
        rfl
      refine ⟨NativeState.submitted_mode s.mode _, fun slot => ?_, fun o member => ?_⟩
      · rw [revision, memory]
        exact s.slots slot
      · rw [settled] at member
        rcases List.mem_append.mp member with old | new
        · exact s.observed o old
        · obtain ⟨spec, hspec, rfl⟩ := List.mem_map.mp new
          refine s.agrees fresh ?_
          rw [failIf_eq_ok, List.any_eq_true, not_exists] at ready
          have bound : native.uploadedIrBuffer spec = true := by
            by_contra unready
            exact ready spec ⟨hspec, by simpa using unready⟩
          rw [NativeState.uploadedIrBuffer, Option.any_eq_true] at bound
          obtain ⟨buffer, found, checks⟩ := bound
          rw [Bool.and_eq_true, beq_iff_eq, beq_iff_eq] at checks
          rw [NativeState.uploaded, found, ← revisions spec hspec]
          exact checks.2

end Sending

/-! ## Plans -/

/-- The bytes that a stream makes of the buffers. -/
def plannedBytes (shadows : List BufferShadow) (ops : List (BufferOp × (PlanSite → Bool))) : Memory :=
  BufferOp.executeAll (ops.map Prod.fst) (baseOf shadows)

/-- The buffers that a stream changes on the way. -/
def Changes (shadows : List BufferShadow) (ops : List (BufferOp × (PlanSite → Bool))) (slot : Nat) :
    Prop :=
  BufferOp.Touched (ops.map Prod.fst) (baseOf shadows) slot

/-- The revision that a plan gives a slot. -/
def targetRevision (shadows : List BufferShadow) (plan : BufferOnlyPlan) (slot : Nat) : UInt64 :=
  (plan.updateForSlot slot).elim (revisionOf shadows slot) BufferRangeUpdate.revision

theorem spec_revision {shadows : List BufferShadow} {plan : BufferOnlyPlan} {binding : BufferBinding}
    {spec : IrBufferSpec} (h : binding.spec plan shadows = .ok spec) :
    spec.revision = targetRevision shadows plan spec.slot := by
  rw [BufferBinding.spec, except_bind_eq_ok] at h
  obtain ⟨_, -, h⟩ := h
  rw [except_bind_eq_ok] at h
  obtain ⟨_, -, h⟩ := h
  rw [except_bind_eq_ok] at h
  obtain ⟨revision, found, h⟩ := h
  obtain rfl := Except.ok.inj h
  show revision = targetRevision shadows plan binding.slot
  rw [PendingBuffers.revision] at found
  rw [targetRevision]
  cases update : plan.updateForSlot binding.slot with
  | some u =>
      rw [update] at found
      exact (Except.ok.inj found).symm
  | none =>
      rw [update] at found
      simp only [okOr_eq_ok, Option.map_eq_some_iff] at found
      obtain ⟨shadow, here, rfl⟩ := found
      rw [revisionOf, here]
      rfl

theorem lower_revisions {shadows : List BufferShadow} {plan : BufferOnlyPlan}
    {events : List (StreamEvent BufferBinding)} {lowered : List (StreamEvent IrBufferSpec)}
    (h : events.mapM (StreamEvent.lower plan shadows) = .ok lowered) :
    ∀ event ∈ lowered, ∀ spec ∈ event.bindings, spec.revision = targetRevision shadows plan spec.slot := by
  intro event member spec hspec
  obtain ⟨source, -, lower⟩ := mapM_ok_mem h event member
  cases source with
  | transfer answer =>
      obtain rfl := Except.ok.inj lower
      cases hspec
  | pass bindings answer =>
      rw [StreamEvent.lower, except_bind_eq_ok] at lower
      obtain ⟨specs, hspecs, lower⟩ := lower
      obtain rfl := Except.ok.inj lower
      obtain ⟨binding, -, same⟩ := mapM_ok_mem hspecs spec hspec
      exact spec_revision same

/-- What a stream that is planned starts from. -/
structure Planned (shadows : List BufferShadow) (ops : List (BufferOp × (PlanSite → Bool)))
    (plan : BufferOnlyPlan) (uploaded : Nat → Option UInt64) (contents : Nat → List UInt8) : Prop where
  layers : Layers shadows plan (plannedBytes shadows ops)
  deltas : Deltas shadows plan (plannedBytes shadows ops)
  tracks : ∀ slot shadow, shadows[slot]? = some shadow → Tracks shadow (uploaded slot) (contents slot)
  fresh : ∀ slot, uploaded slot = some (targetRevision shadows plan slot) →
    Agrees (contents slot) (plannedBytes shadows ops slot)

namespace Planned

variable {shadows : List BufferShadow} {ops : List (BufferOp × (PlanSite → Bool))}
  {plan : BufferOnlyPlan} {uploaded : Nat → Option UInt64} {contents : Nat → List UInt8}
  {mode : SubmitMode} {native : NativeState} {slot : Nat} {shadow : BufferShadow}

theorem target_of_none (found : plan.updateForSlot slot = none) (here : shadows[slot]? = some shadow) :
    targetRevision shadows plan slot = shadow.revision := by
  rw [targetRevision, found, revisionOf, here]
  rfl

/-- A changed buffer gets a later revision. -/
theorem target_of_some (p : Planned shadows ops plan uploaded contents) {u : BufferRangeUpdate}
    (found : plan.updateForSlot slot = some u) (here : shadows[slot]? = some shadow) :
    targetRevision shadows plan slot = u.revision ∧ shadow.revision < u.revision := by
  refine ⟨by rw [targetRevision, found]; rfl, ?_⟩
  obtain ⟨member, rfl⟩ := updateForSlot_mem found
  obtain ⟨same, hsame, next⟩ := p.layers.revision u member
  rw [here] at hsame
  obtain rfl := Option.some.inj hsame
  have later := checkedAdd64_toNat next
  have one : (1 : UInt64).toNat = 1 := rfl
  rw [UInt64.lt_iff_toNat_lt]
  omega

theorem target_le (p : Planned shadows ops plan uploaded contents)
    (here : shadows[slot]? = some shadow) : shadow.revision ≤ targetRevision shadows plan slot := by
  cases found : plan.updateForSlot slot with
  | none =>
      rw [target_of_none found here]
      exact UInt64.le_refl _
  | some u =>
      obtain ⟨target, later⟩ := p.target_of_some found here
      rw [target]
      exact UInt64.le_of_lt later

/-- Where the stream has changed nothing, the plan's bytes are the shadow's. -/
theorem bytes_of_none (p : Planned shadows ops plan uploaded contents)
    (found : plan.updateForSlot slot = none) (here : shadows[slot]? = some shadow) :
    plannedBytes shadows ops slot = shadow.bytes.getD [] := by
  rw [p.layers.untouched slot found, baseOf_eq here]

/-- What the preparations are given to upload is complete on its base revision. -/
theorem upload_complete (p : Planned shadows ops plan uploaded contents) {allocated : Nat → Bool}
    {prepared : PreparedBufferOnlyPlan}
    (room : (plan.reserve shadows allocated : Except NativeError _) = .ok prepared)
    (here : shadows[slot]? = some shadow) {cloned : Bool} {delta : IrBufferUpdate}
    (h : prepared.uploadForSlot shadow slot cloned = some delta)
    (base : uploaded slot = some delta.previousRevision) :
    Complete (contents slot) (plannedBytes shadows ops slot) delta := by
  rw [PreparedBufferOnlyPlan.uploadForSlot, prepared_updateForSlot room] at h
  cases found : plan.updateForSlot slot with
  | some u =>
      rw [found] at h
      obtain rfl := Option.some.inj h
      rw [reservedUpdate_upload] at base ⊢
      obtain ⟨member, rfl⟩ := updateForSlot_mem found
      exact ((p.tracks _ _ here).merged here ((p.deltas u member).clone cloned)).2.2 base
  | none =>
      rw [found] at h
      obtain ⟨retained, hretained, rfl⟩ := Option.map_eq_some_iff.mp h
      obtain ⟨ordered, -, complete⟩ := (p.tracks _ _ here).delta retained hretained
      rw [p.bytes_of_none found here]
      exact fun i inside differs => (complete base i inside differs).clone ordered cloned

/-- Whether or not the stream fails later, physical storage fits the accepted shadows. -/
theorem tracks_accepted (p : Planned shadows ops plan uploaded contents)
    (s : native.Shown uploaded contents (targetRevision shadows plan) (plannedBytes shadows ops) mode)
    (here : shadows[slot]? = some shadow) :
    Tracks shadow (native.uploaded slot) (native.contents slot) := by
  have before := p.tracks slot shadow here
  rcases s.slots slot with ⟨revision, bytes⟩ | forgotten | ⟨revision, agrees⟩
  · rw [revision, bytes]
    exact before
  · rw [forgotten]
    exact before.forget
  · rw [revision]
    constructor
    · intro current
      cases found : plan.updateForSlot slot with
      | none =>
          rw [← p.bytes_of_none found here]
          exact agrees
      | some u =>
          obtain ⟨target, later⟩ := p.target_of_some found here
          rw [target] at current
          rw [Option.some.inj current] at later
          exact absurd later (UInt64.lt_irrefl _)
    · intro upload hupload
      obtain ⟨ordered, older, -⟩ := before.delta upload hupload
      refine ⟨ordered, older, fun base => ?_⟩
      have later := p.target_le here
      rw [Option.some.inj base] at later
      exact absurd older (UInt64.not_lt.mpr later)

/-- Once the stream is accepted, physical storage fits the published shadows. -/
theorem tracks_published (p : Planned shadows ops plan uploaded contents)
    (s : native.Shown uploaded contents (targetRevision shadows plan) (plannedBytes shadows ops) mode)
    {allocated : Nat → Bool} {prepared : PreparedBufferOnlyPlan}
    (room : (plan.reserve shadows allocated : Except NativeError _) = .ok prepared)
    {published : BufferShadow}
    (h : (prepared.publish shadows (.ok () : Except NativeError Unit)).2[slot]? = some published) :
    Tracks published (native.uploaded slot) (native.contents slot) := by
  obtain ⟨shadow, here⟩ : ∃ shadow, shadows[slot]? = some shadow := by
    have inside := (List.getElem?_eq_some_iff.mp h).1
    rw [(p.layers.publishes room).length] at inside
    exact ⟨_, List.getElem?_eq_getElem inside⟩
  have spec := p.layers.publish_spec room here
  cases found : plan.updateForSlot slot with
  | none =>
      rw [found] at spec
      obtain rfl := Option.some.inj (spec.symm.trans h)
      exact p.tracks_accepted s here
  | some u =>
      rw [found] at spec
      obtain ⟨next, hnext, bytes, revision, -, upload⟩ := spec
      obtain rfl := Option.some.inj (hnext.symm.trans h)
      obtain ⟨target, later⟩ := p.target_of_some found here
      obtain ⟨member, rfl⟩ := updateForSlot_mem found
      obtain ⟨ordered, older, complete⟩ := (p.tracks _ _ here).merged here (p.deltas u member)
      constructor
      · intro current
        rw [revision, ← target] at current
        rw [bytes]
        exact s.agrees p.fresh current
      · intro delta hdelta
        obtain rfl := Option.some.inj (upload.symm.trans hdelta)
        rw [revision, bytes]
        have before := UInt64.lt_of_le_of_lt older later
        refine ⟨ordered, before, fun base => ?_⟩
        rcases s.slots u.slot with ⟨same, kept⟩ | forgotten | ⟨prepared, -⟩
        · rw [kept]
          exact complete (same.symm.trans base)
        · rw [forgotten] at base
          cases base
        · rw [prepared, target] at base
          rw [Option.some.inj base] at before
          exact absurd before (UInt64.lt_irrefl _)

end Planned

/-! ## Submissions -/

/-- The shadows and physical storage fit together, and draws found what is planned. -/
structure NativeState.Fits (shadows : List BufferShadow) (planned : Memory) (mode : SubmitMode)
    (native : NativeState) : Prop where
  mode : native.Mode mode
  tracks : ∀ slot shadow, shadows[slot]? = some shadow →
    Tracks shadow (native.uploaded slot) (native.contents slot)
  observed : ∀ o ∈ native.settled.observed, Agrees o.contents (planned o.slot)

theorem materialize_progress {uploaded : Nat → Option UInt64} {contents : Nat → List UInt8}
    {target : Nat → UInt64} {planned : Memory} {mode : SubmitMode} {native : NativeState}
    (p : native.Progress uploaded contents target planned mode) (stream : BufferStream)
    (specs : List IrBufferSpec) :
    Fallible.Ensures (materialize mode stream specs) native
      (fun _ native' => native'.Progress uploaded contents target planned mode)
      fun _ native' => native'.Progress uploaded contents target planned mode := by
  cases mode with
  | synchronous => exact .pure p
  | tracked =>
      refine .loop (fun (_ : List IrBufferSpec) (native' : NativeState) =>
        native'.Progress uploaded contents target planned .tracked) p ?_
      intro done spec native' _ p
      exact .bind ((irBuffer_progress p spec _).imp (fun _ _ here => here.1) fun _ _ here => here)
        fun _ _ here => .pure here

/-- A stream, up to the checkpoint: if it fails, physical storage fits the accepted
shadows, and if it does not, the shadows that will be published. -/
theorem lowerStream_fits {shadows : List BufferShadow} (stream : BufferStream) (mode : SubmitMode)
    (native : NativeState) (m : native.Mode mode) (u : native.Undrawn)
    (tracks : ∀ slot shadow, shadows[slot]? = some shadow →
      Tracks shadow (native.uploaded slot) (native.contents slot))
    (fresh : ∀ plan, (BufferOp.recordAll shadows stream.ops .empty : Except NativeError _) = .ok plan →
      ∀ slot, native.uploaded slot = some (targetRevision shadows plan slot) →
        Agrees (native.contents slot) (plannedBytes shadows stream.ops slot)) :
    Fallible.Ensures (lowerStream mode shadows stream) native
      (fun lowered native' =>
        native'.Fits shadows (plannedBytes shadows stream.ops) mode ∧
        native'.Fits (lowered.1.publish shadows (.ok () : Except NativeError Unit)).2
          (plannedBytes shadows stream.ops) mode)
      fun _ native' => native'.Fits shadows (plannedBytes shadows stream.ops) mode := by
  have start : native.Fits shadows (plannedBytes shadows stream.ops) mode := by
    refine ⟨m, tracks, fun o member => ?_⟩
    rw [u.settled] at member
    cases member
  refine .lift_bind (fun _ _ => .lift_bind (fun plan recorded => .lift_bind (fun events hevents =>
    .lift_bind (fun _ _ => .lift_bind (fun prepared room => .lift_bind (fun _ _ => ?_)
      fun _ _ => start) fun _ _ => start) fun _ _ => start) fun _ _ => start) fun _ _ => start)
    fun _ _ => start
  have p : Planned shadows stream.ops plan native.uploaded native.contents :=
    ⟨(recordAll_layers recorded).1, recordAll_deltas recorded, tracks, fresh plan recorded⟩
  have revisions := lower_revisions hevents
  have failed : ∀ {native' : NativeState},
      native'.Shown native.uploaded native.contents (targetRevision shadows plan)
        (plannedBytes shadows stream.ops) mode →
      native'.Fits shadows (plannedBytes shadows stream.ops) mode :=
    fun s => ⟨s.mode, fun _ _ here => p.tracks_accepted s here, s.observed⟩
  have progress : native.Progress native.uploaded native.contents (targetRevision shadows plan)
      (plannedBytes shadows stream.ops) mode := ⟨m, u, fun _ => .inl ⟨rfl, rfl⟩⟩
  refine .bind ((materialize_progress progress stream _).imp (fun _ _ next => next)
    fun _ _ next => failed next.shown) fun _ first hfirst => ?_
  refine .bind ((prepareBuffers_progress ?_ ?_ ?_ [] hfirst).imp (fun _ _ next => next)
    fun _ _ next => failed next.shown) fun slots second hsecond => ?_
  rotate_left 3
  · refine .bind (.loop (fun _ native' => native'.Shown native.uploaded native.contents
      (targetRevision shadows plan) (plannedBytes shadows stream.ops) mode) hsecond.shown ?_)
      fun _ last hlast => .pure ⟨failed hlast, hlast.mode, ?_, hlast.observed⟩
    · intro done event native' member s
      exact (sendEvent_shown s p.fresh (revisions event member)).imp (fun _ _ next => next)
        fun _ _ next => failed next
    · exact fun slot published here => p.tracks_published hlast room here
  · intro slot shadow allocated source here h
    rw [prepared_source room] at h
    obtain ⟨len, copy, direct⟩ := p.layers.source_spec here h
    exact ⟨len, copy, direct⟩
  · exact fun slot shadow cloned delta here h base => p.upload_complete room here h base
  · intro spec member
    obtain ⟨event, hevent, hspec⟩ := List.mem_flatMap.mp member
    exact revisions event hevent spec hspec

/-! ### Tracked streams -/

/-- Nothing that was there is touched before the checkpoint. -/
def Unsent (native native' : NativeState) : Prop :=
  native'.device.observed = native.device.observed ∧
    ∀ slot, (bufferAt native.buffers slot).isSome →
      (bufferAt native'.buffers slot).isSome ∧
        native'.device.memory (.buffer slot) = native.device.memory (.buffer slot)

theorem Unsent.refl (native : NativeState) : Unsent native native :=
  ⟨rfl, fun _ here => ⟨here, rfl⟩⟩

theorem Unsent.trans (a b c : NativeState) (first : Unsent a b) (second : Unsent b c) :
    Unsent a c := by
  refine ⟨second.1.trans first.1, fun slot here => ?_⟩
  obtain ⟨there, same⟩ := first.2 slot here
  obtain ⟨last, same'⟩ := second.2 slot there
  exact ⟨last, same'.trans same⟩

theorem irBuffer_unsent (spec : IrBufferSpec) (create : Except HandleError (List UInt8)) :
    Fallible.Steps Unsent (NativeState.irBuffer spec create) := by
  intro native
  refine (?_ : Fallible.Ensures (NativeState.irBuffer spec create) native
    (fun _ native' => Unsent native native') fun _ native' => Unsent native native') |>.state
  refine .read_bind (.lift_bind (fun _ _ => .lift_bind (fun found hfound => ?_)
    fun _ _ => .refl native) fun _ _ => .refl native)
  rw [okOr_eq_ok] at hfound
  cases found with
  | some buffer => exact .lift_bind (fun _ _ => .pure (.refl native)) fun _ _ => .refl native
  | none =>
      refine .lift_bind (fun bytes _ => .update_bind (.pure ⟨rfl, fun slot here => ?_⟩))
        fun _ _ => .refl native
      have inside : spec.slot < native.buffers.length := (List.getElem?_eq_some_iff.mp hfound).1
      have other : slot ≠ spec.slot := by
        rintro rfl
        rw [bufferAt, hfound] at here
        cases here
      refine ⟨?_, Function.update_of_ne (fun same => other (NativeResource.buffer.inj same)) _ _⟩
      show (bufferAt (native.buffers.set spec.slot _) slot).isSome
      rw [NativeState.bufferAt_set inside, if_neg other]
      exact here

theorem setUploaded_unsent (slot : Nat) (revision : Option UInt64) (native : NativeState) :
    Unsent native (native.setUploaded slot revision) := by
  refine ⟨rfl, fun other here => ⟨?_, rfl⟩⟩
  show (bufferAt (native.buffers.modify slot _) other).isSome
  rw [NativeState.bufferAt_modify]
  split
  · rw [Option.isSome_map]
    exact here
  · exact here

/-- A sequence of computations of which none touches what was there. -/
theorem unsent_bind {α β : Type} {m : Fallible NativeState NativeError α}
    {f : α → Fallible NativeState NativeError β} (first : Fallible.Steps Unsent m)
    (rest : ∀ a, Fallible.Steps Unsent (f a)) : Fallible.Steps Unsent (m >>= f) :=
  .bind Unsent.trans first rest

theorem unsent_lift_bind {α β : Type} {x : Except NativeError α}
    {f : α → Fallible NativeState NativeError β} (rest : ∀ a, Fallible.Steps Unsent (f a)) :
    Fallible.Steps Unsent ((liftM x : Fallible NativeState NativeError α) >>= f) :=
  unsent_bind (.lift Unsent.refl x) rest

theorem unsent_pure {α : Type} (a : α) :
    Fallible.Steps Unsent (pure a : Fallible NativeState NativeError α) := .pure Unsent.refl a

theorem prepareIrBuffer_unsent (maxCommandSize : Nat) (spec : IrBufferSpec) (source : BufferSource)
    (update : Option IrBufferUpdate) (answers : PrepareAnswers) :
    Fallible.Steps Unsent (prepareIrBuffer .tracked maxCommandSize spec source update answers) := by
  refine unsent_lift_bind fun _ => unsent_bind (irBuffer_unsent spec answers.create) fun buffer => ?_
  split
  · exact unsent_pure ()
  · refine unsent_lift_bind fun ranges => unsent_lift_bind fun _ => unsent_lift_bind fun payload => ?_
    refine unsent_bind (fun native => setUploaded_unsent spec.slot none native) fun _ => ?_
    refine unsent_bind (.loop Unsent.refl Unsent.trans (fun chunk => ?_) _) fun _ native =>
      setUploaded_unsent spec.slot _ native
    refine unsent_lift_bind fun bytes => unsent_lift_bind fun arena => unsent_lift_bind fun _ => ?_
    exact fun native => .refl native

theorem prepareBuffers_unsent (shadows : List BufferShadow) (prepared : PreparedBufferOnlyPlan)
    (stream : BufferStream) (specs : List IrBufferSpec) (slots : List Nat) :
    Fallible.Steps Unsent (prepareBuffers .tracked shadows prepared stream specs slots) := by
  induction specs generalizing slots with
  | nil => exact unsent_pure slots
  | cons spec rest ih =>
      rw [prepareBuffers]
      refine unsent_lift_bind fun _ => ?_
      split
      · exact ih slots
      · refine unsent_lift_bind fun shadow => unsent_lift_bind fun source => ?_
        exact unsent_bind (prepareIrBuffer_unsent _ _ _ _ _) fun _ => unsent_lift_bind fun _ => ih _

/-- Until its checkpoint a tracked stream only makes buffers, and stages packets. -/
theorem lowerStream_unsent (shadows : List BufferShadow) (stream : BufferStream) :
    Fallible.Steps Unsent (lowerStream .tracked shadows stream) := by
  refine unsent_lift_bind fun _ => unsent_lift_bind fun plan => unsent_lift_bind fun events => ?_
  refine unsent_lift_bind fun _ => unsent_lift_bind fun prepared => unsent_lift_bind fun _ => ?_
  refine unsent_bind (.loop Unsent.refl Unsent.trans (fun spec => ?_) _) fun _ => ?_
  · exact unsent_bind (irBuffer_unsent _ _) fun _ => unsent_pure ()
  refine unsent_bind (prepareBuffers_unsent _ _ _ _ _) fun slots => ?_
  refine unsent_bind (.loop Unsent.refl Unsent.trans (fun event => ?_) _) fun _ => unsent_pure _
  cases event with
  | transfer answer => exact .lift Unsent.refl answer
  | pass specs answer =>
      refine unsent_bind (.read Unsent.refl) fun _ => unsent_lift_bind fun _ => unsent_lift_bind fun _ => ?_
      exact fun native => .refl native

/-! ## Runs -/

namespace BufferWorld

variable {world : BufferWorld}

/-- The revision recorded for a slot. -/
def uploaded (world : BufferWorld) (slot : Nat) : Option UInt64 :=
  (bufferAt world.buffers slot).bind IrBuffer.uploadedRevision

/-- What the device holds for a slot. -/
def contents (world : BufferWorld) (slot : Nat) : List UInt8 := world.device.memory (.buffer slot)

/-- Physical storage is at the revision that the next change of the buffer is given. -/
def Ahead (world : BufferWorld) (slot : Nat) : Prop :=
  ∃ shadow revision, world.shadows[slot]? = some shadow ∧
    checkedAdd64 shadow.revision 1 = some revision ∧ world.uploaded slot = some revision

/-- Every shadow fits what is known of its physical storage. -/
def Tracked (world : BufferWorld) : Prop :=
  ∀ slot shadow, world.shadows[slot]? = some shadow →
    Tracks shadow (world.uploaded slot) (world.contents slot)

/-- A stream that changes a buffer which is ahead makes the bytes of it that physical
storage has. -/
def CompatibleOps (world : BufferWorld) (ops : List (BufferOp × (PlanSite → Bool))) : Prop :=
  ∀ slot, Changes world.shadows ops slot → world.Ahead slot →
    Agrees (world.contents slot) (plannedBytes world.shadows ops slot)

/-- A step that changes no buffer which is ahead to other bytes than physical storage
has. -/
def Compatible (world : BufferWorld) : BufferStep → Prop
  | .submitIr stream => world.CompatibleOps stream.ops
  | .submitIrAsync stream _ => world.CompatibleOps stream.ops
  | .submitBuffers ops _ _ => world.CompatibleOps ops
  | .submitCompute results _ => ∀ result ∈ results, world.Ahead result.1 →
      Agrees (world.contents result.1) result.2
  | .releaseBuffer _ => True

/-- The bytes that a step plans for the buffers its draws bind. -/
def planned (world : BufferWorld) : BufferStep → Memory
  | .submitIr stream => plannedBytes world.shadows stream.ops
  | .submitIrAsync stream _ => plannedBytes world.shadows stream.ops
  | _ => fun _ => []

/-- The recorded revision is only the plan's if the bytes are. -/
theorem Tracked.fresh (t : world.Tracked) {ops : List (BufferOp × (PlanSite → Bool))}
    (c : world.CompatibleOps ops) {plan : BufferOnlyPlan}
    (recorded : (BufferOp.recordAll world.shadows ops .empty : Except NativeError _) = .ok plan)
    (slot : Nat) (h : world.uploaded slot = some (targetRevision world.shadows plan slot)) :
    Agrees (world.contents slot) (plannedBytes world.shadows ops slot) := by
  obtain ⟨layers, touched⟩ := recordAll_layers recorded
  cases found : plan.updateForSlot slot with
  | some u =>
      refine c slot ((touched slot).mp (by rw [found]; rfl)) ?_
      rw [targetRevision, found] at h
      obtain ⟨member, rfl⟩ := updateForSlot_mem found
      obtain ⟨shadow, here, next⟩ := layers.revision u member
      exact ⟨shadow, u.revision, here, next, h⟩
  | none =>
      have same : plannedBytes world.shadows ops slot = baseOf world.shadows slot :=
        layers.untouched slot found
      rw [same]
      cases here : world.shadows[slot]? with
      | none =>
          rw [baseOf, here]
          exact fun i inside => (Nat.not_lt_zero i inside).elim
      | some shadow =>
          rw [Planned.target_of_none found here] at h
          rw [baseOf_eq here]
          exact (t slot shadow here).current h

/-- A cleared delta claims nothing. -/
theorem tracked_clearUploads {shadows : List BufferShadow} {slots : List Nat}
    {uploaded : Nat → Option UInt64} {contents : Nat → List UInt8}
    (t : ∀ slot shadow, shadows[slot]? = some shadow → Tracks shadow (uploaded slot) (contents slot)) :
    ∀ slot shadow, (clearUploads slots shadows)[slot]? = some shadow →
      Tracks shadow (uploaded slot) (contents slot) := by
  intro slot shadow here
  obtain ⟨before, found, rfl | rfl⟩ := clearUploads_cases here
  · exact t slot shadow found
  · exact ⟨(t slot before found).current, fun upload none => by cases none⟩

theorem Tracked.submitIr (t : world.Tracked) (stream : BufferStream)
    (c : world.CompatibleOps stream.ops) :
    (world.submitIr stream).Tracked ∧
      ∀ o ∈ (world.submitIr stream).device.observed,
        Agrees o.contents (plannedBytes world.shadows stream.ops o.slot) := by
  have fits := lowerStream_fits stream .synchronous world.native
    (fun _ => rfl) ⟨rfl, fun packet member => (List.not_mem_nil member).elim⟩ t
    (fun plan recorded => t.fresh c recorded)
  have settled : ∀ {native : NativeState}, native.Mode .synchronous → native.settled = native.device := by
    intro native m
    rw [NativeState.settled, m rfl]
    rfl
  rw [BufferWorld.submitIr]
  generalize lowered : lowerStream .synchronous world.shadows stream world.native = outcome
  obtain ⟨answer, native⟩ := outcome
  cases answer with
  | error error =>
      have fits := fits.of_eq_error lowered
      have same := settled fits.mode
      refine ⟨fun slot shadow here => ?_, ?_⟩
      · have tracks := fits.tracks slot shadow here
        rwa [NativeState.contents, same] at tracks
      · have observed := fits.observed
        rwa [same] at observed
  | ok lowered' =>
      obtain ⟨-, fits⟩ := fits.of_eq_ok lowered
      have same := settled fits.mode
      refine ⟨tracked_clearUploads fun slot shadow here => ?_, ?_⟩
      · have tracks := fits.tracks slot shadow here
        rwa [NativeState.contents, same] at tracks
      · have observed := fits.observed
        rwa [same] at observed

theorem mapM_some_mem {α β : Type} {f : α → Option β} {items : List α} {results : List β}
    (h : items.mapM f = some results) : ∀ b ∈ results, ∃ a ∈ items, f a = some b := by
  induction items generalizing results with
  | nil =>
      rw [List.mapM_nil] at h
      obtain rfl := Option.some.inj h
      exact fun b member => (List.not_mem_nil member).elim
  | cons a rest ih =>
      rw [List.mapM_cons, Option.bind_eq_bind, Option.bind_eq_some_iff] at h
      obtain ⟨first, hfirst, h⟩ := h
      rw [Option.bind_eq_bind, Option.bind_eq_some_iff] at h
      obtain ⟨others, hothers, h⟩ := h
      obtain rfl := Option.some.inj h
      intro b member
      rcases List.mem_cons.mp member with rfl | later
      · exact ⟨a, List.mem_cons_self, hfirst⟩
      · obtain ⟨c, hc, same⟩ := ih hothers b later
        exact ⟨c, List.mem_cons_of_mem _ hc, same⟩

/-- A restored snapshot is that of the buffers that were there, and nothing is known of
the others. -/
theorem uploaded_restore (world : BufferWorld) (buffers : List (Option IrBuffer)) (slot : Nat) :
    (bufferAt (restore world.snapshot buffers) slot).bind IrBuffer.uploadedRevision =
      if (bufferAt buffers slot).isSome then world.uploaded slot else none := by
  have snapshot : (world.snapshot[slot]?).join = world.uploaded slot := by
    rw [BufferWorld.snapshot, uploaded, bufferAt, List.getElem?_map]
    cases world.buffers[slot]? <;> rfl
  rw [bufferAt, bufferAt, restore, List.getElem?_mapIdx]
  cases buffers[slot]? with
  | none => rfl
  | some buffer =>
      cases buffer with
      | none => rfl
      | some buffer => exact snapshot

/-- Observations are only ever added. -/
theorem observed_accept (device : Device) (packet : List NativeCommand) :
    ∃ later, (device.accept packet).observed = device.observed ++ later := by
  induction packet generalizing device with
  | nil => exact ⟨[], (List.append_nil _).symm⟩
  | cons command rest ih =>
      obtain ⟨later, same⟩ := ih (device.execute command)
      have step : ∃ first, (device.execute command).observed = device.observed ++ first := by
        cases command with
        | inlineWrite resource offset bytes => exact ⟨[], (List.append_nil _).symm⟩
        | bufferCopy slot offset arena arenaOffset length => exact ⟨[], (List.append_nil _).symm⟩
        | draws buffers => exact ⟨_, rfl⟩
      obtain ⟨first, here⟩ := step
      refine ⟨first ++ later, ?_⟩
      rw [← List.append_assoc, ← here]
      exact same

theorem observed_foldl_accept (packets : List (List NativeCommand)) (device : Device) :
    ∃ later, (packets.foldl Device.accept device).observed = device.observed ++ later := by
  induction packets generalizing device with
  | nil => exact ⟨[], (List.append_nil _).symm⟩
  | cons packet rest ih =>
      obtain ⟨first, here⟩ := observed_accept device packet
      obtain ⟨later, same⟩ := ih (device.accept packet)
      refine ⟨first ++ later, ?_⟩
      rw [List.foldl_cons, same, here, List.append_assoc]

/-- What the draws of a prefix found, those of the whole stream found. -/
theorem observed_take (native : NativeState) (packets : Nat) :
    ∀ o ∈ ((native.staged.take packets).foldl Device.accept native.device).observed,
      o ∈ native.settled.observed := by
  intro o member
  obtain ⟨later, whole⟩ := observed_foldl_accept (native.staged.drop packets)
    ((native.staged.take packets).foldl Device.accept native.device)
  rw [← List.foldl_append, List.take_append_drop] at whole
  rw [NativeState.settled, whole]
  exact List.mem_append_left _ member

theorem Tracked.submitIrAsync (t : world.Tracked) (stream : BufferStream)
    (c : world.CompatibleOps stream.ops) (checkpoint : Checkpoint) :
    ((world.submitIrAsync stream checkpoint).usable = true →
      (world.submitIrAsync stream checkpoint).Tracked) ∧
      ∀ o ∈ (world.submitIrAsync stream checkpoint).device.observed,
        Agrees o.contents (plannedBytes world.shadows stream.ops o.slot) := by
  have fits := lowerStream_fits stream .tracked world.native
    (fun tracked => (by cases tracked)) ⟨rfl, fun packet member => (List.not_mem_nil member).elim⟩ t
    (fun plan recorded => t.fresh c recorded)
  have unsent := lowerStream_unsent world.shadows stream world.native
  rw [BufferWorld.submitIrAsync]
  generalize lowered : lowerStream .tracked world.shadows stream world.native = outcome at unsent ⊢
  obtain ⟨answer, native⟩ := outcome
  obtain ⟨quiet, kept⟩ := unsent
  -- A stream of which nothing was accepted.
  have rejected : ∀ world' : BufferWorld, world'.shadows = world.shadows →
      world'.buffers = restore world.snapshot native.buffers → world'.device = native.device →
      world'.Tracked ∧ ∀ o ∈ world'.device.observed,
        Agrees o.contents (plannedBytes world.shadows stream.ops o.slot) := by
    intro world' shadows buffers device
    constructor
    · intro slot shadow here
      rw [shadows] at here
      rw [uploaded, buffers, uploaded_restore, contents, device]
      split
      · cases before : bufferAt world.buffers slot with
        | some buffer =>
            have present : (bufferAt world.native.buffers slot).isSome :=
              Option.isSome_iff_exists.mpr ⟨buffer, before⟩
            have same := (kept slot present).2
            rw [same]
            exact t slot shadow here
        | none =>
            have unknown : world.uploaded slot = none := by
              rw [uploaded, before]
              rfl
            rw [unknown]
            exact (t slot shadow here).forget
      · exact (t slot shadow here).forget
    · intro o member
      rw [device] at member
      have none : native.device.observed = [] := quiet
      rw [none] at member
      cases member
  cases answer with
  | error error =>
      obtain ⟨tracked, observed⟩ := rejected { world with
        buffers := restore world.snapshot native.buffers
        device := native.device } rfl rfl rfl
      exact ⟨fun _ => tracked, observed⟩
  | ok lowered' =>
      obtain ⟨-, fits⟩ := fits.of_eq_ok lowered
      cases checkpoint with
      | refused error =>
          obtain ⟨tracked, observed⟩ := rejected { world with
            buffers := restore world.snapshot native.buffers
            device := native.device } rfl rfl rfl
          exact ⟨fun _ => tracked, observed⟩
      | accepted => exact ⟨fun _ => tracked_clearUploads fits.tracks, fits.observed⟩
      | cut packets =>
          exact ⟨fun usable => (by cases usable),
            fun o member => fits.observed o (observed_take native packets o member)⟩

theorem Tracked.submitBuffers (t : world.Tracked) {ops : List (BufferOp × (PlanSite → Bool))}
    (c : world.CompatibleOps ops) (reserved : Nat → Bool) (acceptance : Except NativeError Unit) :
    (world.submitBuffers ops reserved acceptance).Tracked := by
  rw [BufferWorld.submitBuffers]
  cases recorded : (BufferOp.recordAll world.shadows ops .empty : Except NativeError _) with
  | error error => exact t
  | ok plan =>
      simp only
      cases room : (plan.reserve world.shadows reserved : Except NativeError _) with
      | error error => exact t
      | ok prepared =>
          cases acceptance with
          | error error => exact t
          | ok _ =>
              have p : Planned world.shadows ops plan world.native.uploaded world.native.contents :=
                ⟨(recordAll_layers recorded).1, recordAll_deltas recorded, t, t.fresh c recorded⟩
              have shown : world.native.Shown world.native.uploaded world.native.contents
                  (targetRevision world.shadows plan) (plannedBytes world.shadows ops) .tracked :=
                ⟨fun tracked => (by cases tracked), fun _ => .inl ⟨rfl, rfl⟩,
                  fun o member => (List.not_mem_nil member).elim⟩
              exact fun slot published here => p.tracks_published shown room here

/-- A computed buffer has no delta, and its revision is only that of physical storage if
the bytes are. -/
theorem Tracked.submitCompute (t : world.Tracked) {results : List (Nat × List UInt8)}
    (c : ∀ result ∈ results, world.Ahead result.1 → Agrees (world.contents result.1) result.2)
    (executed : Except Bool Unit) : (world.submitCompute results executed).Tracked := by
  rw [BufferWorld.submitCompute]
  cases revisions : world.computeRevisions results with
  | none => exact t
  | some computed =>
      cases executed with
      | error accepted => exact t
      | ok _ =>
          have sound : ∀ entry ∈ computed, ∃ shadow, world.shadows[entry.1]? = some shadow ∧
              checkedAdd64 shadow.revision 1 = some entry.2.2 ∧ (entry.1, entry.2.1) ∈ results := by
            intro entry member
            obtain ⟨result, hresult, found⟩ := mapM_some_mem revisions entry member
            rw [Option.bind_eq_bind, Option.bind_eq_some_iff] at found
            obtain ⟨shadow, here, found⟩ := found
            rw [Option.bind_eq_bind, Option.bind_eq_some_iff] at found
            obtain ⟨revision, next, found⟩ := found
            obtain rfl := Option.some.inj found
            exact ⟨shadow, here, next, hresult⟩
          refine List.foldlRecOn computed BufferWorld.publishCompute
            (motive := fun shadows => ∀ slot shadow, shadows[slot]? = some shadow →
              Tracks shadow (world.uploaded slot) (world.contents slot)) t ?_
          intro shadows tracks entry member slot shadow here
          obtain ⟨before, hbefore, next, result⟩ := sound entry member
          rw [BufferWorld.publishCompute, List.getElem?_modify] at here
          obtain ⟨old, hold, rfl⟩ := Option.map_eq_some_iff.mp here
          split
          · rename_i same
            subst same
            refine ⟨fun current => ?_, fun upload none => by cases none⟩
            exact c _ result ⟨before, entry.2.2, hbefore, next, current⟩
          · exact tracks slot old hold

/-- Of a released buffer nothing is known, and nothing is claimed. -/
theorem Tracked.releaseBuffer (t : world.Tracked) (slot : Nat) : (world.releaseBuffer slot).Tracked := by
  intro other shadow here
  rw [BufferWorld.releaseBuffer] at here ⊢
  rw [List.getElem?_set] at here
  by_cases same : slot = other
  · subst same
    have unknown : ∀ contents, Tracks BufferShadow.default none contents := fun contents =>
      ⟨fun current => (by cases current), fun upload none => (by cases none)⟩
    have gone : (bufferAt (world.buffers.set slot none) slot).bind IrBuffer.uploadedRevision = none := by
      rw [bufferAt, List.getElem?_set, if_pos rfl]
      split <;> rfl
    rw [if_pos rfl] at here
    split at here
    · obtain rfl := Option.some.inj here
      rw [uploaded, gone]
      exact unknown _
    · cases here
  · rw [if_neg same] at here
    have kept : (bufferAt (world.buffers.set slot none) other).bind IrBuffer.uploadedRevision =
        world.uploaded other := by
      rw [bufferAt, List.getElem?_set, if_neg same]
      rfl
    rw [uploaded, kept]
    exact t other shadow here

/-! ### Steps -/

/-- A compatible step keeps shadows and physical storage together, unless it ends the
run, and its draws find the planned bytes. -/
theorem Tracked.step (t : world.Tracked) {step : BufferStep} (c : world.Compatible step) :
    ((world.step step).usable = true → (world.step step).Tracked) ∧
      ∀ o ∈ (world.step step).device.observed, Agrees o.contents (world.planned step o.slot) := by
  rw [BufferWorld.step]
  have t : world.unobserved.Tracked := t
  have quiet : ∀ o ∈ world.unobserved.device.observed,
      Agrees o.contents (world.planned step o.slot) := fun o member => (List.not_mem_nil member).elim
  split
  · cases step with
    | submitIr stream =>
        obtain ⟨tracked, observed⟩ := t.submitIr stream c
        exact ⟨fun _ => tracked, observed⟩
    | submitIrAsync stream checkpoint => exact t.submitIrAsync stream c checkpoint
    | submitBuffers ops reserved acceptance =>
        refine ⟨fun _ => t.submitBuffers c reserved acceptance, ?_⟩
        have same : (world.unobserved.submitBuffers ops reserved acceptance).device =
            world.unobserved.device := by
          rw [BufferWorld.submitBuffers]
          split
          · rfl
          · split <;> rfl
        rw [perform, same]
        exact quiet
    | submitCompute results executed =>
        refine ⟨fun _ => t.submitCompute c executed, ?_⟩
        have same : (world.unobserved.submitCompute results executed).device =
            world.unobserved.device := by
          rw [BufferWorld.submitCompute]
          split
          · rfl
          · split <;> rfl
        rw [perform, same]
        exact quiet
    | releaseBuffer slot => exact ⟨fun _ => t.releaseBuffer slot, quiet⟩
  · exact ⟨fun _ => t, quiet⟩

theorem Tracked.new (memory : NativeResource → List UInt8) : (BufferWorld.new memory).Tracked := by
  intro slot shadow here
  have unknown : (BufferWorld.new memory).uploaded slot = none := by
    rw [uploaded, bufferAt, BufferWorld.new, List.getElem?_replicate]
    split <;> rfl
  rw [BufferWorld.new, List.getElem?_replicate] at here
  split at here
  · obtain rfl := Option.some.inj here
    rw [unknown]
    exact ⟨fun current => (by cases current), fun upload none => (by cases none)⟩
  · cases here

/-- Every step of a run is compatible. -/
def CompatibleRun (world : BufferWorld) : List BufferStep → Prop
  | [] => True
  | step :: rest => world.Compatible step ∧ (world.step step).CompatibleRun rest

theorem step_of_not_usable (h : world.usable = false) (step : BufferStep) :
    world.step step = world.unobserved := by
  rw [BufferWorld.step, if_neg (by rw [h]; exact Bool.false_ne_true)]

/-- Compatible runs keep shadows and physical storage together. -/
theorem Tracked.run (t : world.usable = true → world.Tracked) {steps : List BufferStep}
    (c : world.CompatibleRun steps) :
    (world.run steps).usable = true → (world.run steps).Tracked := by
  induction steps generalizing world with
  | nil => exact t
  | cons step rest ih =>
      refine ih (fun usable => ?_) c.2
      cases before : world.usable with
      | true => exact ((t before).step c.1).1 usable
      | false =>
          rw [step_of_not_usable before step] at usable
          exact absurd (before.symm.trans usable) Bool.false_ne_true

end BufferWorld

/-- Physical buffers are not stale in a compatible run: whenever a step follows one, the
draws it has accepted find in every buffer that they bind the bytes that its stream makes
of the buffer, over their whole length. -/
theorem draws_find_planned (memory : NativeResource → List UInt8) (before : List BufferStep)
    (step : BufferStep) (compatible : (BufferWorld.new memory).CompatibleRun (before ++ [step])) :
    ∀ o ∈ (((BufferWorld.new memory).run before).step step).device.observed,
      Agrees o.contents (((BufferWorld.new memory).run before).planned step o.slot) := by
  have split : ∀ (world : BufferWorld) (steps : List BufferStep),
      world.CompatibleRun (steps ++ [step]) →
        world.CompatibleRun steps ∧ (world.run steps).Compatible step := by
    intro world steps
    induction steps generalizing world with
    | nil => exact fun c => ⟨trivial, c.1⟩
    | cons first rest ih =>
        intro c
        obtain ⟨later, last⟩ := ih (world.step first) c.2
        exact ⟨⟨c.1, later⟩, last⟩
  obtain ⟨earlier, last⟩ := split _ before compatible
  have tracked := BufferWorld.Tracked.run (fun _ => BufferWorld.Tracked.new memory) earlier
  cases usable : ((BufferWorld.new memory).run before).usable with
  | true => exact ((tracked usable).step last).2
  | false =>
      rw [BufferWorld.step_of_not_usable usable]
      exact fun o member => (List.not_mem_nil member).elim

/-! ## A failed stream -/

/-- A stream that overwrites the first word of a buffer, and draws with the buffer. -/
def overwrite (byte : UInt8) (answer : Except NativeError Unit) : BufferStream where
  ops := [(.write 0 0 [byte, byte, byte, byte], fun _ => true)]
  events := [.pass [⟨0, 4, true⟩] answer]
  preservesContent := true
  validated := .ok ()
  reserved := fun _ => true
  materialized := .ok ()
  maxCommandSize := 65536
  prepare := fun _ => ⟨.ok [], true, true, .ok (), fun _ => .ok (0, 0), true⟩

/-- A device that holds nothing. -/
def nothing : NativeResource → List UInt8 := fun _ => []

set_option maxRecDepth 20000 in
/-- The witness of `draws_find_planned`: a first stream. -/
theorem draws_find_planned_first :
    Agrees [1, 1, 1, 1]
      (((BufferWorld.new nothing).run []).planned (.submitIr (overwrite 1 (.ok ()))) 0) := by
  have compatible : (BufferWorld.new nothing).CompatibleRun
      ([] ++ [.submitIr (overwrite 1 (.ok ()))]) := by
    refine ⟨fun slot _ ahead => ?_, trivial⟩
    obtain ⟨shadow, revision, -, -, recorded⟩ := ahead
    have unknown : (BufferWorld.new nothing).uploaded slot = none := by
      rw [BufferWorld.uploaded, bufferAt, BufferWorld.new, List.getElem?_replicate]
      split <;> rfl
    rw [unknown] at recorded
    cases recorded
  have found : (((BufferWorld.new nothing).run []).step
      (.submitIr (overwrite 1 (.ok ())))).device.observed = [⟨0, [1, 1, 1, 1]⟩] := rfl
  have member : ⟨0, [1, 1, 1, 1]⟩ ∈ (((BufferWorld.new nothing).run []).step
      (.submitIr (overwrite 1 (.ok ())))).device.observed := by
    rw [found]
    exact List.mem_singleton_self _
  exact draws_find_planned nothing [] (.submitIr (overwrite 1 (.ok ()))) compatible _ member

set_option maxRecDepth 20000 in
/-- Without the condition draws find other bytes: a stream prepares a buffer and fails,
and the next stream changes the buffer to other bytes under the same revision. -/
theorem not_draws_find_planned :
    ¬ ∀ (memory : NativeResource → List UInt8) (before : List BufferStep) (step : BufferStep),
      ∀ o ∈ (((BufferWorld.new memory).run before).step step).device.observed,
        Agrees o.contents (((BufferWorld.new memory).run before).planned step o.slot) := by
  intro claim
  have found : (((BufferWorld.new nothing).run [.submitIr (overwrite 1 (.error .submissionFailed))]).step
      (.submitIr (overwrite 2 (.ok ())))).device.observed = [⟨0, [1, 1, 1, 1]⟩] := rfl
  have planned : ((BufferWorld.new nothing).run
      [.submitIr (overwrite 1 (.error .submissionFailed))]).planned
        (.submitIr (overwrite 2 (.ok ()))) 0 = [2, 2, 2, 2] := rfl
  have observed := claim nothing [.submitIr (overwrite 1 (.error .submissionFailed))]
    (.submitIr (overwrite 2 (.ok ())))
  rw [found] at observed
  have agrees := observed _ (List.mem_singleton_self _)
  rw [planned] at agrees
  exact absurd (agrees 0 (Nat.succ_pos 3)) (by decide)

end Sgfx.Virgl
