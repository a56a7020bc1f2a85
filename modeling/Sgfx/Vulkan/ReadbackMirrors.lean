import Sgfx.Vulkan.HostUploadSnapshots
import Sgfx.Vulkan.RecordingExecution

/-!
# The mirrors after an execution

Whatever is inserted into the stream, the resources of the host change only at the end of an
execution, where the bytes that the device wrote are read back.  The loop over the tracked ranges
carries `Mirrored` from the ranges that are done to all of them.

## Main Definitions

* `Resources.hostByte` — a byte of a mirror
* `Backend.Reads` — what reads of the device give
* `PlacesApart` — no byte of memory is tracked by two buffers
* `Mirrored` — the mirrors and the uploads after some bytes were read back

## Main Results

* `Mirrored.write` — one range
* `execute_mirrored`
* `gpu_write_tracking` — the ranges, the query and the mirrors
-/

namespace Sgfx.Vulkan

/-- The byte of a mirror at a place. -/
def Resources.hostByte (resources : Resources) (place : DeviceMemory × Nat) : Option UInt8 :=
  (resources.mirror place.1).bind fun bytes => bytes[place.2]?

section

variable {β ρ π ω : Type}

/-- The device reads the bytes that its buffers contain.  Where it has them at once, they do not
depend on what it is asked about its submissions. -/
structure Backend.Reads (backend : Backend β ρ π ω) (contents : β → BufferId → Nat → UInt8) :
    Prop where
  readBuffer : ∀ {id start size device device' bytes},
    backend.readBuffer id start size device = (.ok bytes, device') →
      bytes = (List.range size).map (fun i => contents device id (start + i)) ∧
        contents device' = contents device
  waitSubmission : backend.immediateReadback = true → ∀ receipt device,
    contents (backend.waitSubmission receipt device).2 = contents device
  poll : backend.immediateReadback = true → ∀ receipt device,
    contents (backend.poll receipt device).2 = contents device

end

/-- Tracked bytes of different buffers are at different places. -/
structure PlacesApart (resources : Resources) (tracked : BufferHandle → Nat → Prop) : Prop where
  same : ∀ {a b i j place}, tracked a i → tracked b j →
    allocationByte resources a i = some place → allocationByte resources b j = some place → a = b

/-- The host after the bytes `tracked` were read back. -/
structure Mirrored (tracked : BufferHandle → Nat → Prop) (contents : BufferId → Nat → UInt8)
    (before after : Resources) : Prop where
  buffers : after.buffers = before.buffers
  current : ∀ {handle i data place}, tracked handle i → before.buffers handle = some data →
    allocationByte before handle i = some place → after.hostByte place = some (contents data.id i)
  unchanged : ∀ {place}, (∀ handle i, tracked handle i →
    allocationByte before handle i ≠ some place) → after.hostByte place = before.hostByte place
  forgotten : ∀ {handle i place other data j}, tracked handle i →
    allocationByte before handle i = some place → other ≠ handle →
    before.buffers other = some data → j < data.size.toNat →
    allocationByte before other j = some place → after.uploadedUnmappedBuffers other = false

/-! ## One range -/

section Write

variable {tracked done : BufferHandle → Nat → Prop} {contents : BufferId → Nat → UInt8}
  {before after : Resources} {handle : BufferHandle} {data : Buffer} {memory : DeviceMemory}
  {offset : UInt64} {range : MemoryRange} {allocation : Memory} {old new : List UInt8}

/-- The places of a buffer that is bound. -/
theorem allocationByte_bound (hdata : before.buffers handle = some data)
    (hbound : data.bound = some (memory, offset)) (i : Nat) :
    allocationByte before handle i = some (memory, offset.toNat + i) :=
  allocationByte_eq_some.mpr ⟨data, offset, hdata, hbound, rfl⟩

/-- A byte of a mirror after a range was copied into it. -/
theorem hostByte_write (hmemory : after.memories memory = some allocation)
    (hold : allocation.bytes = some old)
    (hcopy : copyFromSlice old (offset.toNat + range.start) (offset.toNat + range.stop)
      ((List.range (range.stop - range.start)).map fun i => contents data.id (range.start + i)) =
        some new) (place : DeviceMemory × Nat) :
    (after.withMirror memory allocation new).hostByte place =
      if place.1 = memory ∧ offset.toNat + range.start ≤ place.2 ∧
          place.2 < offset.toNat + range.stop then
        some (contents data.id (place.2 - offset.toNat))
      else after.hostByte place := by
  unfold copyFromSlice at hcopy
  split at hcopy
  case isFalse => cases hcopy
  rename_i inside
  cases hcopy
  obtain ⟨order, bound, length⟩ := inside
  simp only [Resources.hostByte, Resources.mirror, Resources.withMirror]
  by_cases here : place.1 = memory
  · have stop : offset.toNat + range.start + (offset.toNat + range.stop -
        (offset.toNat + range.start)) = offset.toNat + range.stop := Nat.add_sub_of_le order
    rw [if_pos here, here, hmemory, Option.bind_some, Option.bind_some, Option.bind_some, hold,
      Option.bind_some, Bytes.getElem?_splice (by rw [length, stop]; exact bound), length, stop]
    simp only [true_and]
    split
    · rename_i covered
      have count : place.2 - (offset.toNat + range.start) < range.stop - range.start := by omega
      have position : range.start + (place.2 - (offset.toNat + range.start)) =
          place.2 - offset.toNat := by omega
      rw [List.getElem?_map, List.getElem?_range count, Option.map_some, position]
    · rfl
  · rw [if_neg here, if_neg fun h => here h.1]

/-- The rest of the resources. -/
theorem hostByte_forgetUploads (resources : Resources) (span : MemoryRange)
    (place : DeviceMemory × Nat) :
    (resources.forgetUploads memory span handle).hostByte place = resources.hostByte place := rfl

/-- A buffer that has a byte in the range is forgotten. -/
theorem forgetUploads_overlapping {resources : Resources} {other : BufferHandle} {j p : Nat}
    {span : MemoryRange} (different : other ≠ handle) (hdata : resources.buffers other = some data)
    (inside : j < data.size.toNat) (hplace : allocationByte resources other j = some (memory, p))
    (covered : span.Has p) :
    (resources.forgetUploads memory span handle).uploadedUnmappedBuffers other = false := by
  obtain ⟨data', start, hdata', hbound, hp⟩ := allocationByte_eq_some.mp hplace
  obtain rfl : data = data' := Option.some.inj (hdata.symm.trans hdata')
  obtain ⟨low, high⟩ := covered
  simp only at hbound hp
  have apart : (other == handle) = false := beq_eq_false_iff_ne.mpr different
  have first : ¬ span.stop ≤ start.toNat := by omega
  have last : ¬ start.toNat + data.size.toNat ≤ span.start := by omega
  simp only [Resources.forgetUploads, apart, hdata, hbound, Option.any_some, bne_self_eq_false,
    first, last, decide_false, Bool.or_false, Bool.and_false]

/-- A buffer that was forgotten stays so. -/
theorem forgetUploads_false {resources : Resources} {other : BufferHandle} {span : MemoryRange}
    (h : resources.uploadedUnmappedBuffers other = false) :
    (resources.forgetUploads memory span handle).uploadedUnmappedBuffers other = false := by
  simp only [Resources.forgetUploads, h, Bool.false_and]

/-- The bytes of one range more. -/
theorem Mirrored.write (mirrored : Mirrored done contents before after)
    (apart : PlacesApart before tracked) (hdone : ∀ other i, done other i → tracked other i)
    (hrange : ∀ i, range.Has i → tracked handle i) (hdata : before.buffers handle = some data)
    (hbound : data.bound = some (memory, offset)) (hmemory : after.memories memory = some allocation)
    (hold : allocation.bytes = some old)
    (hcopy : copyFromSlice old (offset.toNat + range.start) (offset.toNat + range.stop)
      ((List.range (range.stop - range.start)).map fun i => contents data.id (range.start + i)) =
        some new) :
    Mirrored (fun other i => done other i ∨ other = handle ∧ range.Has i) contents before
      ((after.withMirror memory allocation new).forgetUploads memory
        ⟨offset.toNat + range.start, offset.toNat + range.stop⟩ handle) where
  buffers := mirrored.buffers
  current := by
    intro other i data' place tracks hdata' hplace
    rw [hostByte_forgetUploads, hostByte_write hmemory hold hcopy]
    split
    · -- the place is one of the range, so the byte is the buffer's own
      rename_i here
      obtain ⟨hmem, low, high⟩ := here
      have index : place = (memory, offset.toNat + (place.2 - offset.toNat)) :=
        Prod.ext hmem (by simp only; omega)
      have same : other = handle := by
        obtain h | ⟨rfl, -⟩ := tracks
        · refine apart.same (hdone _ _ h) (hrange (place.2 - offset.toNat) ⟨?_, ?_⟩) hplace
            ((allocationByte_bound hdata hbound _).trans (congrArg some index.symm)) <;> omega
        · rfl
      subst same
      obtain rfl : data = data' := Option.some.inj (hdata.symm.trans hdata')
      rw [allocationByte_bound hdata hbound, Option.some.injEq] at hplace
      rw [← hplace]
      simp only [Nat.add_sub_cancel_left]
    · rename_i elsewhere
      obtain h | ⟨rfl, low, high⟩ := tracks
      · exact mirrored.current h hdata' hplace
      · rw [allocationByte_bound hdata hbound, Option.some.injEq] at hplace
        refine absurd ?_ elsewhere
        rw [← hplace]
        exact ⟨rfl, Nat.add_le_add_left low _, Nat.add_lt_add_left high _⟩
  unchanged := by
    intro place untracked
    rw [hostByte_forgetUploads, hostByte_write hmemory hold hcopy, if_neg]
    · exact mirrored.unchanged fun other i h => untracked other i (.inl h)
    · rintro ⟨hmem, low, high⟩
      refine untracked handle (place.2 - offset.toNat) (.inr ⟨rfl, ?_, ?_⟩)
        ((allocationByte_bound hdata hbound _).trans
          (congrArg some (Prod.ext hmem.symm ?_))) <;> omega
  forgotten := by
    intro other i place third data' j tracks hplace different hdata' inside hthird
    obtain h | ⟨rfl, low, high⟩ := tracks
    · exact forgetUploads_false (mirrored.forgotten h hplace different hdata' inside hthird)
    · rw [allocationByte_bound hdata hbound, Option.some.injEq] at hplace
      subst hplace
      have hbuffers : (after.withMirror memory allocation new).buffers = before.buffers :=
        mirrored.buffers
      refine forgetUploads_overlapping (p := offset.toNat + i) different
        ((congrFun hbuffers third).trans hdata') inside ?_
        ⟨Nat.add_le_add_left low _, Nat.add_lt_add_left high _⟩
      rw [← hthird]
      simp only [allocationByte, hbuffers]

/-- Only the bytes of buffers that are bound count. -/
theorem Mirrored.congr (mirrored : Mirrored done contents before after)
    (h : ∀ {handle i place}, allocationByte before handle i = some place →
      (done handle i ↔ tracked handle i)) : Mirrored tracked contents before after where
  buffers := mirrored.buffers
  current tracks hdata hplace := mirrored.current ((h hplace).mpr tracks) hdata hplace
  unchanged untracked := mirrored.unchanged fun handle i hdone hplace =>
    untracked handle i ((h hplace).mp hdone) hplace
  forgotten tracks hplace := mirrored.forgotten ((h hplace).mpr tracks) hplace

end Write

/-! ## All ranges -/

section ReadBack

variable {β ρ π ω : Type} {backend : Backend β ρ π ω} {contentsOf : β → BufferId → Nat → UInt8}
  {tracked done : BufferHandle → Nat → Prop} {before : Resources} {first state : Execution β ρ}
  {handle : BufferHandle} {data : Buffer} {memory : DeviceMemory} {offset : UInt64}
  {range : MemoryRange} {ranges : List MemoryRange}

/-- The invariant of the loops: of the tracked bytes, those of `done` are read back. -/
structure ReadingBack (tracked done : BufferHandle → Nat → Prop)
    (contentsOf : β → BufferId → Nat → UInt8) (before : Resources) (first state : Execution β ρ) :
    Prop where
  within : ∀ handle i, done handle i → tracked handle i
  mirrored : Mirrored done (contentsOf first.backend) before state.resources
  contents : contentsOf state.backend = contentsOf first.backend
  retained : state.retained = first.retained

theorem ReadingBack.congr {done' : BufferHandle → Nat → Prop}
    (reading : ReadingBack tracked done contentsOf before first state)
    (within : ∀ handle i, done' handle i → tracked handle i)
    (h : ∀ {handle i place}, allocationByte before handle i = some place →
      (done handle i ↔ done' handle i)) :
    ReadingBack tracked done' contentsOf before first state :=
  ⟨within, reading.mirrored.congr h, reading.contents, reading.retained⟩

/-- One range. -/
theorem readBackRange_reading (reads : backend.Reads contentsOf)
    (apart : PlacesApart before tracked) (hrange : ∀ i, range.Has i → tracked handle i)
    (hdata : before.buffers handle = some data) (hbound : data.bound = some (memory, offset))
    (reading : ReadingBack tracked done contentsOf before first state) :
    Fallible.Ensures (readBackRange backend handle data.id memory offset range) state
      (fun _ after => ReadingBack tracked (fun other i => done other i ∨ other = handle ∧ range.Has i)
        contentsOf before first after) fun _ _ => True := by
  unfold readBackRange
  have read : Fallible.Ensures
      (onBackend (ρ := ρ) (backend.readBuffer data.id range.start (range.stop - range.start))) state
      (fun bytes mid => mid.resources = state.resources ∧ mid.retained = state.retained ∧
        contentsOf mid.backend = contentsOf state.backend ∧
        bytes = (List.range (range.stop - range.start)).map fun i =>
          contentsOf state.backend data.id (range.start + i)) fun _ _ => True := by
    unfold Fallible.Ensures onBackend Fallible.zoom
    split
    · rename_i run
      rw [Prod.mk.injEq] at run
      obtain ⟨hbytes, rfl⟩ := run
      obtain ⟨same, kept⟩ := reads.readBuffer (Prod.ext hbytes rfl)
      exact ⟨rfl, rfl, kept, same⟩
    · trivial
  refine read.bind ?_
  rintro bytes mid ⟨hresources, hretained, hcontents, rfl⟩
  refine .read_bind (.lift_bind (fun allocation hmemory => ?_) fun _ _ => trivial)
  refine .lift_bind (fun start hstart => ?_) fun _ _ => trivial
  refine .lift_bind (fun stop hstop => ?_) fun _ _ => trivial
  refine .lift_bind (fun old hold => ?_) fun _ _ => trivial
  refine .lift_bind (fun new hcopy => ?_) fun _ _ => trivial
  rw [okOr_eq_ok, hresources] at hmemory
  obtain rfl := checkedAddUsize_eq_some (okOr_eq_ok.mp hstart)
  obtain rfl := checkedAddUsize_eq_some (okOr_eq_ok.mp hstop)
  rw [reading.contents] at hcopy
  refine .update ⟨?_, ?_, hcontents.trans reading.contents, hretained.trans reading.retained⟩
  · rintro other i (h | ⟨rfl, h⟩)
    · exact reading.within other i h
    · exact hrange i h
  · simp only [hresources]
    exact reading.mirrored.write apart reading.within hrange hdata hbound hmemory
      (okOr_eq_ok.mp hold) (okOr_eq_ok.mp hcopy)

/-- The ranges of a buffer. -/
theorem readBackBuffer_reading (reads : backend.Reads contentsOf)
    (apart : PlacesApart before tracked) (hranges : ∀ i, Covered ranges i → tracked handle i)
    (reading : ReadingBack tracked done contentsOf before first state) :
    Fallible.Ensures (readBackBuffer backend (handle, ranges)) state
      (fun _ after => ReadingBack tracked
        (fun other i => done other i ∨ other = handle ∧ Covered ranges i)
        contentsOf before first after) fun _ _ => True := by
  have within : ∀ other i, (done other i ∨ other = handle ∧ Covered ranges i) → tracked other i := by
    rintro other i (h | ⟨rfl, h⟩)
    · exact reading.within other i h
    · exact hranges i h
  unfold readBackBuffer
  refine .read_bind (.lift_bind (fun data hdata => ?_) fun _ _ => trivial)
  rw [okOr_eq_ok, reading.mirrored.buffers] at hdata
  cases hbound : data.bound with
  | none =>
      -- its bytes are at no place
      refine .pure (reading.congr within ?_)
      intro other i place hplace
      refine (or_iff_left ?_).symm
      rintro ⟨rfl, -⟩
      obtain ⟨data', offset, hdata', hbound', -⟩ := allocationByte_eq_some.mp hplace
      rw [hdata, Option.some.injEq] at hdata'
      rw [← hdata', hbound] at hbound'
      cases hbound'
  | some bound =>
      obtain ⟨memory, offset⟩ := bound
      refine .loop (fun finished state => ReadingBack tracked
        (fun other i => done other i ∨ other = handle ∧ Covered finished i)
        contentsOf before first state) ?_ ?_
      · exact reading.congr (fun other i h => reading.within other i (by simpa using h)) (by simp)
      · intro finished range state member reading
        have hrange (i : Nat) (h : range.Has i) : tracked handle i := hranges i ⟨range, member, h⟩
        refine (readBackRange_reading reads apart hrange hdata hbound reading).imp ?_
          fun _ _ _ => trivial
        intro _ after reading
        simpa only [or_assoc, ← and_or_left, covered_append, covered_singleton] using reading

/-- All buffers: from the state before the first, every tracked byte is read back. -/
theorem readBack_reading {readback : Readbacks} (reads : backend.Reads contentsOf)
    (apart : PlacesApart before fun handle => Covered (readback.of handle))
    (reading : ReadingBack (fun handle => Covered (readback.of handle)) (fun _ _ => False)
      contentsOf before first state) :
    Fallible.Ensures (readBack backend readback) state
      (fun _ after => ReadingBack (fun handle => Covered (readback.of handle))
        (fun handle => Covered (readback.of handle)) contentsOf before first after)
      fun _ _ => True := by
  have row {entry : BufferHandle × List MemoryRange} :
      entry ∈ readback.ranges.toList ↔ readback.ranges[entry.1]? = some entry.2 :=
    Std.TreeMap.mem_toList_iff_getElem?_eq_some
  have looped : Fallible.Ensures (readBack backend readback) state
      (fun _ after => ReadingBack (fun handle => Covered (readback.of handle))
        (fun handle i => ∃ entry ∈ readback.ranges.toList, entry.1 = handle ∧ Covered entry.2 i)
        contentsOf before first after) fun _ _ => True := by
    refine .loop (fun (finished : List (BufferHandle × List MemoryRange)) state =>
      ReadingBack (fun handle => Covered (readback.of handle))
        (fun handle i => ∃ entry ∈ finished, entry.1 = handle ∧ Covered entry.2 i)
        contentsOf before first state) (reading.congr (by simp) (by simp)) ?_
    rintro finished ⟨handle, ranges⟩ state member reading
    have hranges (i : Nat) (h : Covered ranges i) : Covered (readback.of handle) i := by
      rw [Readbacks.of, Std.TreeMap.getD_eq_getD_getElem?, row.mp member]
      exact h
    refine (readBackBuffer_reading reads apart hranges reading).imp ?_ fun _ _ _ => trivial
    intro _ after reading
    simpa only [List.mem_append, List.mem_singleton, or_and_right, exists_or, exists_eq_left,
      eq_comm] using reading
  refine looped.imp (fun _ after reading => reading.congr (fun _ _ h => h) ?_) fun _ _ h => h
  intro handle i place _
  rw [Readbacks.of, Std.TreeMap.getD_eq_getD_getElem?]
  constructor
  · rintro ⟨entry, member, rfl, h⟩
    rwa [row.mp member]
  · intro h
    cases hranges : readback.ranges[handle]? with
    | none => simp [hranges] at h
    | some ranges => exact ⟨(handle, ranges), row.mpr hranges, rfl, by rwa [hranges] at h⟩

end ReadBack

/-! ## Before and after the ranges -/

section Execute

variable {β ρ π ω α γ : Type} {backend : Backend β ρ π ω}
  {contentsOf : β → BufferId → Nat → UInt8}

theorem onBackend_keeps (work : Fallible β Stop α) :
    Fallible.Keeps Execution.resources (onBackend work : Fallible (Execution β ρ) Stop α) := by
  refine .zoom ?_ work
  exact fun _ _ => rfl

theorem onReceipts_keeps (work : Fallible (β × List ρ) Stop α) :
    Fallible.Keeps Execution.resources (onReceipts work) := by
  refine .zoom ?_ work
  exact fun _ _ => rfl

theorem submit_keeps (ops : List StreamCommand) : Fallible.Keeps Execution.resources (submit backend ops) :=
  .bind (onBackend_keeps _) fun _ => Fallible.Keeps.update fun _ => rfl

theorem synchronizeWhile_keeps (due : SynchronizationInsertion ω → Bool)
    (insertions : List (SynchronizationInsertion ω)) (ops : List StreamCommand) :
    Fallible.Keeps Execution.resources (synchronizeWhile backend due insertions ops) := by
  induction insertions generalizing ops with
  | nil => exact .pure _
  | cons insertion later ih =>
      unfold synchronizeWhile
      split
      · exact .read_bind fun state => .bind (onReceipts_keeps _) fun ops => ih ops
      · exact .pure _

theorem insertCopy_keeps (position : Nat)
    (stream : List (SynchronizationInsertion ω) × List StreamCommand) (copy : ReadImage π) :
    Fallible.Keeps Execution.resources (insertCopy backend position stream copy) := by
  refine .bind (synchronizeWhile_keeps _ _ _) fun ⟨synchronizations, ops⟩ => ?_
  refine .bind (submit_keeps ops) fun _ => .bind (onReceipts_keeps _) fun _ => ?_
  exact .bind (onBackend_keeps _) fun bytes => .read_bind fun state =>
    .lift_bind fun buffer => .lift_bind fun writes => .pure _

theorem assembleTurn_keeps (recorded : List OwnedCommand) (stream : Stream π ω) (position : Nat) :
    Fallible.Keeps Execution.resources (assembleTurn backend recorded stream position) := by
  unfold assembleTurn
  refine .bind (.foldlM (fun ops insertion => ?_) _ _) fun ops => ?_
  · exact .read_bind fun state => .bind (onBackend_keeps _) fun group => .pure _
  refine .bind (.foldlM (fun ops barrier => ?_) _ _) fun ops => ?_
  · exact .read_bind fun state => .lift_bind fun ids => .pure _
  refine .bind (.foldlM (insertCopy_keeps position) _ _) fun ⟨synchronizations, ops⟩ => ?_
  exact .bind (synchronizeWhile_keeps _ _ _) fun _ => .pure _

/-- Nothing that is inserted into the stream touches a mirror. -/
theorem assemble_keeps (rec : ResolvedRecording π ω) (uploads : List BufferWrite) :
    Fallible.Keeps Execution.resources (assemble backend rec uploads) :=
  .bind (.foldlM (assembleTurn_keeps rec.ops) _ _) fun _ => .pure _

theorem readbackWait_keeps (readback : Readbacks) :
    Fallible.Keeps Execution.resources (readbackWait backend readback) := by
  unfold readbackWait
  split
  · exact .read_bind fun state => .bind (.loop (fun receipt => onBackend_keeps _) state.retained)
      fun _ => .update fun _ => rfl
  · exact .pure ()

/-- After the wait there is no receipt, unless the device has the bytes at once or there are none
to read. -/
theorem readbackWait_retained {readback : Readbacks} {state after : Execution β ρ}
    (run : readbackWait backend readback state = (.ok (), after)) :
    readback.ranges.isEmpty = true ∨ backend.immediateReadback = true ∨ after.retained = [] := by
  unfold readbackWait at run
  split at run
  · rw [Fallible.read_bind_run, Fallible.bind_eq_ok] at run
    obtain ⟨_, mid, -, run⟩ := run
    rw [Fallible.update_run, Prod.mk.injEq] at run
    exact .inr (.inr (run.2 ▸ rfl))
  · rename_i unneeded
    simp only [not_and_or, Bool.not_eq_false] at unneeded
    exact unneeded.imp_right .inl

theorem drain_contents (reads : backend.Reads contentsOf)
    (immediate : backend.immediateReadback = true) :
    Fallible.Keeps (fun device => contentsOf device.1) (drain backend) := by
  refine .read_bind fun device => .bind (.update fun _ => rfl) fun _ => .loop (fun receipt => ?_) _
  exact ⟨fun state => reads.waitSubmission immediate receipt state.1⟩

/-- Asking for the submissions that are complete changes nothing that is read. -/
theorem reapCompleted_contents (reads : backend.Reads contentsOf) (device : β × List ρ)
    (settled : backend.immediateReadback = true ∨ device.2 = []) :
    contentsOf (reapCompleted backend device).2.1 = contentsOf device.1 := by
  obtain immediate | empty := settled
  · have keeps : Fallible.Keeps (fun device : β × List ρ => contentsOf device.1)
        (reapCompleted backend) := by
      refine .read_bind fun device => .bind (.foldlM (fun kept receipt => ⟨fun state => ?_⟩) _ _) ?_
      · have polled := reads.poll immediate receipt state.1
        simp only
        split <;> (rename_i run; rwa [run] at polled)
      · rintro ⟨kept, failure⟩
        refine .bind (.update fun _ => rfl) fun _ => ?_
        cases failure with
        | some error => exact .fail error
        | none =>
            simp only
            split
            · exact drain_contents reads immediate
            · exact .pure ()
    exact keeps.steps device
  · obtain ⟨state, retained⟩ := device
    obtain rfl : retained = [] := empty
    rfl

/-- After an execution the mirrors have the tracked bytes of the device. -/
theorem execute_mirrored (reads : backend.Reads contentsOf) {sorting : StartSort}
    {rec : ResolvedRecording π ω} {before after : Execution β ρ}
    (apart : PlacesApart before.resources fun handle => Covered (rec.readbackBuffers.of handle))
    (run : execute backend sorting rec before = (.ok (), after)) :
    Mirrored (fun handle => Covered (rec.readbackBuffers.of handle)) (contentsOf after.backend)
      before.resources after.resources := by
  unfold execute at run
  rw [Fallible.read_bind_run, Fallible.lift_bind_eq_ok] at run
  obtain ⟨⟨uploads, fresh⟩, -, run⟩ := run
  rw [Fallible.bind_eq_ok] at run
  obtain ⟨ops, assembled, hassembled, run⟩ := run
  rw [Fallible.bind_eq_ok] at run
  obtain ⟨_, submitted, hsubmitted, run⟩ := run
  rw [Fallible.bind_eq_ok] at run
  obtain ⟨_, waited, hwaited, run⟩ := run
  rw [Fallible.update_bind_run, Fallible.bind_eq_ok] at run
  obtain ⟨_, done, hdone, run⟩ := run
  have hresources : waited.resources = before.resources :=
    ((readbackWait_keeps _).of_eq_ok hwaited).trans
      (((submit_keeps ops).of_eq_ok hsubmitted).trans
        ((assemble_keeps rec uploads).of_eq_ok hassembled))
  let marked : Execution β ρ :=
    { waited with resources := waited.resources.markUploaded (fresh.map Prod.fst) }
  have start : Mirrored (fun _ _ => False) (contentsOf marked.backend) before.resources
      marked.resources :=
    { buffers := (congrArg Resources.buffers hresources : _)
      current := fun h => h.elim
      unchanged := fun {place} _ =>
        (congrArg (Resources.hostByte · place) hresources : _)
      forgotten := fun h => h.elim }
  have reading : ReadingBack (fun handle => Covered (rec.readbackBuffers.of handle))
      (fun _ _ => False) contentsOf before.resources marked marked :=
    ⟨fun _ _ h => h.elim, start, rfl, rfl⟩
  have finished := (readBack_reading reads apart reading).of_eq_ok hdone
  rw [onReceipts, Fallible.zoom_eq_ok] at run
  obtain ⟨device, hreap, rfl⟩ := run
  refine { finished.mirrored with current := fun {handle i data place} tracks hdata hplace => ?_ }
  -- the tracked byte shows that there was something to wait for
  have settled : backend.immediateReadback = true ∨ done.retained = [] := by
    obtain empty | settled := readbackWait_retained hwaited
    · rw [Readbacks.of, Std.TreeMap.getD_of_isEmpty empty] at tracks
      exact (covered_nil tracks).elim
    · exact settled.imp_right finished.retained.trans
  have same := reapCompleted_contents reads (done.backend, done.retained) settled
  rw [hreap] at same
  exact (finished.mirrored.current tracks hdata hplace).trans
    (congrArg (fun contents => some (contents data.id i))
      (finished.contents.symm.trans same.symm))

end Execute

/-- The ranges of any calls, in order and apart, have the bytes of the calls; a query that is
answered by no is of no place that the calls write; and after an execution the mirrors have the
tracked bytes of the device and are otherwise as they were, with no other buffer at a tracked place
uploaded. -/
theorem gpu_write_tracking :
    (∀ calls, Readbacks.Tracks (Readbacks.insertAll calls) calls) ∧
    (∀ (calls : List Readbacks.Insertion) (resources : Resources) (buffer : BufferHandle)
        (range : MemoryRange),
      (Readbacks.insertAll calls).mayWrite resources buffer range = false →
      ∀ call ∈ calls, ∀ (writer : BufferHandle) (i j : Nat) (place : DeviceMemory × Nat),
        call.Writes writer i → range.Has j → allocationByte resources writer i = some place →
        allocationByte resources buffer j ≠ some place) ∧
    (∀ {β ρ π ω : Type} (backend : Backend β ρ π ω) (contents : β → BufferId → Nat → UInt8),
      backend.Reads contents → ∀ (sorting : StartSort) (rec : ResolvedRecording π ω)
        (calls : List Readbacks.Insertion) (before after : Execution β ρ),
      rec.readbackBuffers = Readbacks.insertAll calls →
      PlacesApart before.resources (fun handle i => ∃ call ∈ calls, call.Writes handle i) →
      execute backend sorting rec before = (.ok (), after) →
      Mirrored (fun handle i => ∃ call ∈ calls, call.Writes handle i) (contents after.backend)
        before.resources after.resources) := by
  refine ⟨Readbacks.insertAll_tracks, ?_, ?_⟩
  · intro calls resources buffer range h call member writer i j place writes inside written
    exact Readbacks.mayWrite_false (Readbacks.insertAll_tracks calls) h member writes inside written
  · intro β ρ π ω backend contents reads sorting rec calls before after hcalls apart run
    have tracks : (fun handle => Covered (rec.readbackBuffers.of handle)) =
        fun handle i => ∃ call ∈ calls, call.Writes handle i := by
      funext handle i
      rw [hcalls]
      exact propext ((Readbacks.insertAll_tracks calls).covered handle i)
    rw [← tracks] at apart ⊢
    exact execute_mirrored reads apart run

/-- A device all of whose bytes are sevens. -/
def sevens : Backend Unit Unit Unit Unit where
  descriptorGroup _ _ := pure ⟨0, 0, 0⟩
  submitOwned _ := pure []
  waitSubmission _ := pure ()
  poll _ := pure true
  readTextureMip _ := pure []
  writes _ _ _ := .ok []
  synchronize _ _ ops := pure ops
  immediateReadback := false
  readBuffer _ _ size := pure (List.replicate size 7)

theorem sevens_reads : sevens.Reads fun _ _ _ => 7 where
  readBuffer {_ _ size _ _ bytes} run := by
    have hbytes : List.replicate size 7 = bytes := Except.ok.inj (congrArg Prod.fst run)
    rw [← hbytes, List.map_const', List.length_range]
    exact ⟨rfl, rfl⟩
  waitSubmission _ _ _ := rfl
  poll _ _ _ := rfl

/-- The calls of commands that write two parts of the buffer of seven bytes. -/
def twoParts : List Readbacks.Insertion := [⟨1, 1, 2⟩, ⟨1, 5, 1⟩]

/-- A recording of such commands. -/
def twoWrites : ResolvedRecording Unit Unit where
  ops := []
  descriptors := []
  copies := []
  barriers := []
  synchronizations := []
  usedBuffers := []
  sourceUploadRanges := ∅
  readbackBuffers := Readbacks.insertAll twoParts

/-- Its execution where all bytes of the device are sevens. -/
def twoWritesRun : Except Stop Unit × Execution Unit Unit :=
  execute sevens insertionStartSort twoWrites ⟨sevenBytes, (), []⟩

example : twoWritesRun.2.resources.mirror 1 = some [9, 9, 0, 7, 7, 3, 4, 7, 6, 9] := by
  decide +kernel

theorem gpu_write_tracking_sevens :
    Mirrored (fun handle i => ∃ call ∈ twoParts, call.Writes handle i) (fun _ _ => 7) sevenBytes
      twoWritesRun.2.resources := by
  have apart : PlacesApart sevenBytes fun handle i => ∃ call ∈ twoParts, call.Writes handle i := by
    refine ⟨fun {a b i j _} ha hb _ _ => ?_⟩
    have one {handle : BufferHandle} {i : Nat} (h : ∃ call ∈ twoParts, call.Writes handle i) :
        handle = 1 := by
      obtain ⟨call, member, rfl, -⟩ := h
      simp only [twoParts, List.mem_cons, List.not_mem_nil, or_false] at member
      obtain rfl | rfl := member <;> rfl
    exact (one ha).trans (one hb).symm
  have succeeded : twoWritesRun.1 = .ok () := by decide +kernel
  exact gpu_write_tracking.2.2 sevens _ sevens_reads insertionStartSort twoWrites twoParts
    ⟨sevenBytes, (), []⟩ twoWritesRun.2 rfl apart (Prod.ext succeeded rfl)

end Sgfx.Vulkan
