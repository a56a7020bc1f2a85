import Sgfx.Virgl.DeviceBuffers

/-!
# Preparing a buffer

A preparation that succeeds leaves the bytes of the plan in the buffer.  The ranges that
it uploads have every byte that the delta names, and the delta is only trusted on its
base revision; each chunk of a range writes the plan's bytes, and the revision is
recorded after the last of them.

## Main Definitions

* `NativeState.settled` — the device, with the staged packets accepted
* `NativeState.Progress` — what the preparations of a stream leave, wherever they stop

## Main Results

* `uploadRanges_covers`, `chunkRanges_covers`
* `prepareIrBuffer_progress`, `prepareBuffers_progress`
-/

namespace Sgfx.Virgl

open Bytes

/-! ## Ranges -/

/-- The ranges to upload are inside the buffer, and have every byte that is not left to
the delta on its base revision. -/
theorem uploadRanges_covers {uploaded : Option UInt64} {revision : UInt64} {length : Nat}
    {update : Option IrBufferUpdate} {ranges : List ByteRange}
    (h : uploadRanges uploaded revision length update = .ok ranges) :
    (∀ range ∈ ranges, range.stop ≤ length) ∧
      ∀ i < length, (∃ range ∈ ranges, range.Has i) ∨
        ∃ delta, update = some delta ∧ uploaded = some delta.previousRevision ∧ ¬ delta.Covers i := by
  have whole : (∀ range ∈ [(⟨0, length⟩ : ByteRange)], range.stop ≤ length) ∧
      ∀ i < length, (∃ range ∈ [(⟨0, length⟩ : ByteRange)], range.Has i) ∨
        ∃ delta, update = some delta ∧ uploaded = some delta.previousRevision ∧
          ¬ delta.Covers i := by
    refine ⟨fun range member => ?_, fun i inside => .inl ⟨_, List.mem_singleton_self _, ?_⟩⟩
    · obtain rfl := List.mem_singleton.mp member
      exact Nat.le_refl _
    · exact ⟨Nat.zero_le _, inside⟩
  rw [uploadRanges, except_bind_eq_ok] at h
  obtain ⟨envelope, henvelope, h⟩ := h
  cases update with
  | none =>
      obtain rfl := Except.ok.inj henvelope
      obtain rfl := Except.ok.inj h
      exact whole
  | some delta =>
      rw [uploadRange] at henvelope
      simp only at henvelope h
      split at henvelope
      · cases henvelope
      by_cases elsewhere : uploaded ≠ some delta.previousRevision ∨ revision ≤ delta.previousRevision
      · rw [if_pos elsewhere] at henvelope h
        obtain rfl := Except.ok.inj henvelope
        obtain rfl := Except.ok.inj h
        exact whole
      · rw [if_neg elsewhere] at henvelope h
        have atBase : uploaded = some delta.previousRevision :=
          Classical.not_not.mp fun ne => elsewhere (.inl ne)
        cases hintervals : delta.intervals with
        | none =>
            rw [hintervals] at h
            obtain rfl := Except.ok.inj h
            rw [checkedAddUsize] at henvelope
            split at henvelope
            · cases henvelope
            · rename_i stop hstop
              split at hstop
              · obtain rfl := Option.some.inj hstop
                obtain rfl := Except.ok.inj henvelope
                refine ⟨fun range member => ?_, fun i inside => ?_⟩
                · obtain rfl := List.mem_singleton.mp member
                  exact Nat.min_le_right ..
                · by_cases named : delta.Covers i
                  · have has : delta.range.Has i := by rwa [BufferUpdate.Covers, hintervals] at named
                    have lower := has.1
                    have upper := has.2
                    refine .inl ⟨_, List.mem_singleton_self _, ?_, ?_⟩
                    · show delta.range.start / 4 * 4 ≤ i
                      omega
                    · show i < min ((delta.range.stop + 3) / 4 * 4) length
                      omega
                  · exact .inr ⟨delta, rfl, atBase, named⟩
              · cases hstop
        | some intervals =>
            rw [hintervals] at h
            simp only at h
            by_cases nonempty : intervals.ranges.isEmpty = true
            · rw [if_pos nonempty] at h
              obtain rfl := Except.ok.inj h
              exact whole
            · rw [if_neg nonempty, except_bind_eq_ok] at h
              obtain ⟨_, valid, h⟩ := h
              obtain rfl := Except.ok.inj h
              rw [failIf_eq_ok, Bool.not_eq_false, validIntervals, Bool.and_eq_true, Bool.and_eq_true,
                List.all_eq_true] at valid
              refine ⟨fun range member => ?_, fun i inside => ?_⟩
              · have checks := valid.1.2 range member
                simp only [Bool.and_eq_true, decide_eq_true_eq] at checks
                exact checks.1.1.2
              · by_cases named : delta.Covers i
                · have covers : intervals.Covers i := (BufferUpdate.covers_iff hintervals).mp named
                  refine .inl (covers.resolve_left fun empty => nonempty ?_)
                  rw [empty]
                  rfl
                · exact .inr ⟨delta, rfl, atBase, named⟩

/-- The chunks of a range are inside it, and have all of it. -/
theorem chunkRanges_covers {maxPayload stop : Nat} (positive : 0 < maxPayload) :
    ∀ (bytes offset : Nat), stop - offset ≤ bytes →
      (∀ chunk ∈ chunkRanges maxPayload stop bytes offset,
        chunk.start ≤ chunk.stop ∧ chunk.stop ≤ stop) ∧
      ∀ i, offset ≤ i → i < stop → ∃ chunk ∈ chunkRanges maxPayload stop bytes offset, chunk.Has i := by
  intro bytes
  induction bytes with
  | zero =>
      intro offset fits
      exact ⟨fun chunk member => (List.not_mem_nil member).elim, fun i lower upper => by omega⟩
  | succ bytes ih =>
      intro offset fits
      rw [chunkRanges]
      split
      · obtain ⟨within, covers⟩ := ih (min (offset + maxPayload) stop) (by omega)
        refine ⟨fun chunk member => ?_, fun i lower upper => ?_⟩
        · rcases List.mem_cons.mp member with rfl | later
          · show offset ≤ min (offset + maxPayload) stop ∧ min (offset + maxPayload) stop ≤ stop
            omega
          · exact within chunk later
        · by_cases here : i < min (offset + maxPayload) stop
          · exact ⟨_, List.mem_cons_self, lower, here⟩
          · obtain ⟨chunk, member, has⟩ := covers i (by omega) upper
            exact ⟨chunk, List.mem_cons_of_mem _ member, has⟩
      · exact ⟨fun chunk member => (List.not_mem_nil member).elim, fun i lower upper => by omega⟩

theorem maxPayload_pos {mode : SubmitMode} {maxCommandSize payload : Nat}
    (h : maxPayload mode maxCommandSize = .ok payload) : 0 < payload := by
  have general : ∀ fixedBytes, (if maxCommandSize < fixedBytes ∨
      (maxCommandSize - fixedBytes) / 4 * 4 = 0 then (.error invalidParameter : Except NativeError Nat)
      else .ok ((maxCommandSize - fixedBytes) / 4 * 4)) = .ok payload → 0 < payload := by
    intro fixedBytes h
    split at h
    · cases h
    · rename_i fits
      obtain rfl := Except.ok.inj h
      omega
  cases mode with
  | synchronous => exact general 48 h
  | tracked => exact general 104 h

/-! ## Packets -/

namespace Device

variable {device : Device}

theorem accept_append (xs ys : List NativeCommand) :
    device.accept (xs ++ ys) = (device.accept xs).accept ys := List.foldl_append ..

/-- Reading back what was written. -/
theorem window_write (xs data : List UInt8) (start : Nat) :
    window (Bytes.write xs start data) start data.length = data := by
  refine Bytes.ext (window_length ..) fun i inside => ?_
  rw [window_length] at inside
  rw [get_window, if_pos inside, get_write, if_pos ⟨Nat.le_add_right .., by omega⟩,
    Nat.add_sub_cancel_left]

theorem memory_write (resource : NativeResource) (offset : Nat) (bytes : List UInt8)
    (other : NativeResource) :
    (device.write resource offset bytes).memory other =
      if other = resource then Bytes.write (device.memory resource) offset bytes
      else device.memory other := Function.update_apply ..

/-- An upload writes its bytes to the buffer, directly or through the arena, and changes
no other buffer. -/
theorem accept_uploadPacket (mode : SubmitMode) (slot offset : Nat) (bytes : List UInt8)
    (arena : Nat × Nat) :
    (device.accept (uploadPacket mode slot offset bytes arena)).observed = device.observed ∧
      ∀ other, (device.accept (uploadPacket mode slot offset bytes arena)).memory (.buffer other) =
        if other = slot then Bytes.write (device.memory (.buffer slot)) offset bytes
        else device.memory (.buffer other) := by
  cases mode with
  | synchronous =>
      refine ⟨rfl, fun other => ?_⟩
      show (device.write (.buffer slot) offset bytes).memory (.buffer other) = _
      rw [memory_write]
      split
      · rename_i same
        rw [if_pos (NativeResource.buffer.inj same)]
      · rename_i ne
        rw [if_neg fun same => ne (congrArg NativeResource.buffer same)]
  | tracked =>
      refine ⟨rfl, fun other => ?_⟩
      have kept : ∀ s, (device.write (.arena arena.1) arena.2 bytes).memory (.buffer s) =
          device.memory (.buffer s) := by
        intro s
        rw [memory_write, if_neg (fun same => by cases same)]
      have staged : (device.write (.arena arena.1) arena.2 bytes).memory (.arena arena.1) =
          Bytes.write (device.memory (.arena arena.1)) arena.2 bytes := by rw [memory_write, if_pos rfl]
      show ((device.write (.arena arena.1) arena.2 bytes).write (.buffer slot) offset
        (window ((device.write (.arena arena.1) arena.2 bytes).memory (.arena arena.1)) arena.2
          bytes.length)).memory (.buffer other) = _
      rw [memory_write, staged, window_write, kept, kept]
      split
      · rename_i same
        rw [if_pos (NativeResource.buffer.inj same)]
      · rename_i ne
        rw [if_neg fun same => ne (congrArg NativeResource.buffer same)]

/-- Two devices that differ in one buffer at most. -/
def AgreeExcept (slot : Nat) (device other : Device) : Prop :=
  ∀ resource, resource ≠ .buffer slot → device.memory resource = other.memory resource

theorem AgreeExcept.write {slot : Nat} {other : Device} (h : AgreeExcept slot device other)
    (resource : NativeResource) (offset : Nat) (bytes : List UInt8) :
    AgreeExcept slot (device.write resource offset bytes) (other.write resource offset bytes) := by
  intro read ne
  rw [memory_write, memory_write]
  split
  · rename_i same
    rw [← same, h read ne]
  · exact h read ne

/-- No command carries the contents of one buffer to another. -/
theorem AgreeExcept.execute {slot : Nat} {other : Device} (h : AgreeExcept slot device other)
    (command : NativeCommand) : AgreeExcept slot (device.execute command) (other.execute command) := by
  cases command with
  | inlineWrite resource offset bytes => exact h.write resource offset bytes
  | bufferCopy destination offset arena arenaOffset length =>
      rw [Device.execute, Device.execute, h (.arena arena) (fun same => by cases same)]
      exact h.write (.buffer destination) offset _
  | draws buffers => exact h

theorem AgreeExcept.accept {slot : Nat} {other : Device} (h : AgreeExcept slot device other)
    (packet : List NativeCommand) : AgreeExcept slot (device.accept packet) (other.accept packet) := by
  induction packet generalizing device other with
  | nil => exact h
  | cons command rest ih => exact ih (h.execute command)

theorem AgreeExcept.foldl_accept {slot : Nat} {other : Device} (h : AgreeExcept slot device other)
    (packets : List (List NativeCommand)) :
    AgreeExcept slot (packets.foldl Device.accept device) (packets.foldl Device.accept other) := by
  induction packets generalizing device other with
  | nil => exact h
  | cons packet rest ih => exact ih (h.accept packet)

/-- A packet without draws. -/
def Undrawn (packet : List NativeCommand) : Prop := ∀ buffers, .draws buffers ∉ packet

theorem observed_of_undrawn {packet : List NativeCommand} (h : Undrawn packet) :
    (device.accept packet).observed = device.observed := by
  induction packet generalizing device with
  | nil => rfl
  | cons command rest ih =>
      have step : (device.execute command).observed = device.observed := by
        cases command with
        | inlineWrite resource offset bytes => rfl
        | bufferCopy destination offset arena arenaOffset length => rfl
        | draws buffers => exact absurd List.mem_cons_self (h buffers)
      exact (ih fun buffers member => h buffers (List.mem_cons_of_mem _ member)).trans step

theorem uploadPacket_undrawn (mode : SubmitMode) (slot offset : Nat) (bytes : List UInt8)
    (arena : Nat × Nat) : Undrawn (uploadPacket mode slot offset bytes arena) := by
  intro buffers member
  cases mode <;> simp [uploadPacket] at member

end Device

/-! ## Native state -/

namespace NativeState

variable {native : NativeState} {slot : Nat}

/-- The device, once the staged packets are accepted. -/
def settled (native : NativeState) : Device := native.staged.foldl Device.accept native.device

/-- The revision recorded for a slot. -/
def uploaded (native : NativeState) (slot : Nat) : Option UInt64 :=
  (bufferAt native.buffers slot).bind IrBuffer.uploadedRevision

/-- What the buffer of a slot holds, with the staged packets accepted. -/
def contents (native : NativeState) (slot : Nat) : List UInt8 := native.settled.memory (.buffer slot)

/-- No draws so far. -/
structure Undrawn (native : NativeState) : Prop where
  accepted : native.device.observed = []
  staged : ∀ packet ∈ native.staged, Device.Undrawn packet

theorem Undrawn.settled (u : native.Undrawn) : native.settled.observed = [] := by
  have general : ∀ (packets : List (List NativeCommand)) (device : Device),
      (∀ packet ∈ packets, Device.Undrawn packet) →
        (packets.foldl Device.accept device).observed = device.observed := by
    intro packets
    induction packets with
    | nil => exact fun _ _ => rfl
    | cons packet rest ih =>
        intro device undrawn
        rw [List.foldl_cons, ih _ fun other h => undrawn other (List.mem_cons_of_mem _ h),
          Device.observed_of_undrawn (undrawn packet List.mem_cons_self)]
  exact (general native.staged native.device u.staged).trans u.accepted

/-- What `submit` does. -/
def submitted (mode : SubmitMode) (packet : List NativeCommand) (native : NativeState) :
    NativeState :=
  match mode with
  | .synchronous => { native with device := native.device.accept packet }
  | .tracked => { native with staged := native.staged ++ [packet] }

/-- In a synchronous stream nothing is staged. -/
def Mode (mode : SubmitMode) (native : NativeState) : Prop :=
  mode = .synchronous → native.staged = []

theorem settled_submitted {mode : SubmitMode} (m : native.Mode mode) (packet : List NativeCommand) :
    (native.submitted mode packet).settled = native.settled.accept packet := by
  cases mode with
  | synchronous =>
      have empty := m rfl
      show native.staged.foldl Device.accept (native.device.accept packet) = _
      rw [settled, empty]
      rfl
  | tracked =>
      show (native.staged ++ [packet]).foldl Device.accept native.device = _
      rw [List.foldl_append]
      rfl

theorem submitted_mode {mode : SubmitMode} (m : native.Mode mode) (packet : List NativeCommand) :
    (native.submitted mode packet).Mode mode := by
  intro synchronous
  subst synchronous
  exact m rfl

theorem submitted_buffers (mode : SubmitMode) (packet : List NativeCommand) :
    (native.submitted mode packet).buffers = native.buffers := by
  cases mode <;> rfl

theorem Undrawn.submitted (u : native.Undrawn) (mode : SubmitMode) {packet : List NativeCommand}
    (undrawn : Device.Undrawn packet) : (native.submitted mode packet).Undrawn := by
  cases mode with
  | synchronous => exact ⟨(Device.observed_of_undrawn undrawn).trans u.accepted, u.staged⟩
  | tracked =>
      refine ⟨u.accepted, fun other member => ?_⟩
      rcases List.mem_append.mp member with old | new
      · exact u.staged other old
      · exact List.mem_singleton.mp new ▸ undrawn

theorem bufferAt_modify (buffers : List (Option IrBuffer)) (f : IrBuffer → IrBuffer) (slot other : Nat) :
    bufferAt (buffers.modify slot fun buffer => buffer.map f) other =
      if other = slot then (bufferAt buffers other).map f else bufferAt buffers other := by
  rw [bufferAt, bufferAt, List.getElem?_modify]
  by_cases same : other = slot
  · subst same
    rw [if_pos rfl]
    cases buffers[other]? with
    | none => rfl
    | some buffer =>
        show (if other = other then buffer.map f else buffer) = buffer.map f
        rw [if_pos rfl]
  · rw [if_neg same]
    cases buffers[other]? with
    | none => rfl
    | some buffer =>
        show (if slot = other then buffer.map f else buffer) = buffer
        rw [if_neg (Ne.symm same)]

theorem bufferAt_set {buffers : List (Option IrBuffer)} {slot : Nat} (inside : slot < buffers.length)
    (buffer : Option IrBuffer) (other : Nat) :
    bufferAt (buffers.set slot buffer) other =
      if other = slot then buffer else bufferAt buffers other := by
  rw [bufferAt, bufferAt, List.getElem?_set]
  by_cases same : other = slot
  · subst same
    rw [if_pos rfl, if_pos inside, if_pos rfl]
    rfl
  · rw [if_neg (Ne.symm same), if_neg same]

end NativeState

/-! ## Progress -/

/-- The preparations of a stream, wherever they stop: a buffer is as it was, or its
revision is forgotten, or it has the bytes and the revision of the plan. -/
structure NativeState.Progress (uploaded : Nat → Option UInt64) (contents : Nat → List UInt8)
    (target : Nat → UInt64) (planned : Memory) (mode : SubmitMode) (native : NativeState) : Prop where
  mode : native.Mode mode
  undrawn : native.Undrawn
  slots : ∀ slot,
    native.uploaded slot = uploaded slot ∧ native.contents slot = contents slot ∨
      native.uploaded slot = none ∨
        native.uploaded slot = some (target slot) ∧ Agrees (native.contents slot) (planned slot)

section Prepare

variable {uploaded : Nat → Option UInt64} {contents : Nat → List UInt8} {target : Nat → UInt64}
  {planned : Memory} {mode : SubmitMode} {native : NativeState}

/-- Another state in which one slot is forgotten, or has the plan's bytes. -/
theorem NativeState.Progress.slot (p : native.Progress uploaded contents target planned mode)
    {native' : NativeState} (slot : Nat) (m : native'.Mode mode) (u : native'.Undrawn)
    (others : ∀ other, other ≠ slot →
      native'.uploaded other = native.uploaded other ∧ native'.contents other = native.contents other)
    (here : native'.uploaded slot = none ∨ native'.uploaded slot = some (target slot) ∧
      Agrees (native'.contents slot) (planned slot)) :
    native'.Progress uploaded contents target planned mode where
  mode := m
  undrawn := u
  slots other := by
    by_cases same : other = slot
    · exact same ▸ .inr here
    · obtain ⟨revision, bytes⟩ := others other same
      rw [revision, bytes]
      exact p.slots other

/-- `ir_buffer` finds the buffer of its slot, or makes one of which nothing is known. -/
theorem irBuffer_progress (p : native.Progress uploaded contents target planned mode)
    (spec : IrBufferSpec) (create : Except HandleError (List UInt8)) :
    Fallible.Ensures (NativeState.irBuffer spec create) native
      (fun buffer native' => native'.Progress uploaded contents target planned mode ∧
        bufferAt native'.buffers spec.slot = some buffer)
      fun _ native' => native'.Progress uploaded contents target planned mode := by
  refine .read_bind (.lift_bind (fun _ _ => .lift_bind (fun found hfound => ?_) fun _ _ => p)
    fun _ _ => p)
  rw [okOr_eq_ok] at hfound
  cases found with
  | some buffer =>
      refine .lift_bind (fun _ _ => .pure ⟨p, ?_⟩) fun _ _ => p
      rw [bufferAt, hfound]
      rfl
  | none =>
      refine .lift_bind (fun bytes _ => .update_bind (.pure ?_)) fun _ _ => p
      have inside : spec.slot < native.buffers.length := (List.getElem?_eq_some_iff.mp hfound).1
      have here : bufferAt (native.allocate spec.slot spec.size bytes).buffers spec.slot =
          some ⟨spec.size, none⟩ := by
        show bufferAt (native.buffers.set spec.slot _) spec.slot = _
        rw [NativeState.bufferAt_set inside, if_pos rfl]
      have apart : Device.AgreeExcept spec.slot
          (native.allocate spec.slot spec.size bytes).device native.device :=
        fun resource ne => Function.update_of_ne ne _ _
      refine ⟨p.slot spec.slot ?_ ?_ (fun other ne => ⟨?_, ?_⟩) (.inl ?_), here⟩
      · exact p.mode
      · exact ⟨p.undrawn.accepted, p.undrawn.staged⟩
      · rw [NativeState.uploaded, NativeState.uploaded]
        show (bufferAt (native.buffers.set spec.slot _) other).bind _ = _
        rw [NativeState.bufferAt_set inside, if_neg ne]
      · exact apart.foldl_accept native.staged (.buffer other)
          fun same => ne (NativeResource.buffer.inj same)
      · rw [NativeState.uploaded, here]
        rfl

/-- Part of an upload: what the chunks that are done have is in the buffer, and the rest
is as it was. -/
structure Uploading (start : NativeState) (slot : Nat) (bytes : List UInt8) (mode : SubmitMode)
    (done : List ByteRange) (native : NativeState) : Prop where
  mode : native.Mode mode
  undrawn : native.Undrawn
  buffers : native.buffers = start.buffers
  others : ∀ other, other ≠ slot → native.contents other = start.contents other
  here : ∀ i < bytes.length, get (native.contents slot) i = get bytes i ∨
    (∀ chunk ∈ done, ¬ chunk.Has i) ∧ get (native.contents slot) i = get (start.contents slot) i

theorem Uploading.revision_eq {start : NativeState} {slot : Nat} {bytes : List UInt8}
    {done : List ByteRange} (u : Uploading start slot bytes mode done native) (other : Nat) :
    native.uploaded other = start.uploaded other := by
  rw [NativeState.uploaded, NativeState.uploaded, u.buffers]

/-- One chunk writes the plan's bytes. -/
theorem Uploading.chunk {start : NativeState} {slot : Nat} {bytes : List UInt8}
    {done : List ByteRange} (u : Uploading start slot bytes mode done native)
    {source : BufferSource} (reads : Reads source bytes) (answers : PrepareAnswers)
    {chunk : ByteRange} (order : chunk.start ≤ chunk.stop) (inside : chunk.stop ≤ bytes.length) :
    Fallible.Ensures (uploadChunk mode slot source answers chunk) native
      (fun _ native' => Uploading start slot bytes mode (done ++ [chunk]) native')
      fun _ native' => native' = native := by
  refine .lift_bind (fun data hdata => .lift_bind (fun arena _ => .lift_bind (fun _ _ => .update ?_)
    fun _ _ => rfl) fun _ _ => rfl) fun _ _ => rfl
  obtain rfl : data = window bytes chunk.start (chunk.stop - chunk.start) := by
    rw [chunkBytes] at hdata
    split at hdata
    · rename_i part direct
      obtain rfl := Except.ok.inj hdata
      exact reads.direct chunk part direct
    · rw [reads.copy chunk order inside] at hdata
      exact (Except.ok.inj hdata).symm
  generalize hpacket : uploadPacket mode slot chunk.start
    (window bytes chunk.start (chunk.stop - chunk.start)) arena = packet
  have effect := native.settled.accept_uploadPacket mode slot chunk.start
    (window bytes chunk.start (chunk.stop - chunk.start)) arena
  rw [hpacket, ← NativeState.settled_submitted u.mode] at effect
  obtain ⟨-, effect⟩ := effect
  have undrawn : Device.Undrawn packet := hpacket ▸ Device.uploadPacket_undrawn _ _ _ _ _
  show Uploading start slot bytes mode (done ++ [chunk]) (native.submitted mode packet)
  refine ⟨NativeState.submitted_mode u.mode packet, u.undrawn.submitted mode undrawn,
    (NativeState.submitted_buffers mode packet).trans u.buffers, fun other ne => ?_, fun i bound => ?_⟩
  · rw [NativeState.contents, effect, if_neg ne]
    exact u.others other ne
  · rw [NativeState.contents, effect, if_pos rfl, get_write, window_length]
    split
    · rename_i written
      rw [get_window, if_pos (by omega), Nat.add_sub_cancel' written.1]
      exact .inl rfl
    · rename_i unwritten
      refine (u.here i bound).imp id fun old => ⟨fun other member has => ?_, old.2⟩
      rcases List.mem_append.mp member with earlier | last
      · exact old.1 other earlier has
      · obtain rfl := List.mem_singleton.mp last
        exact unwritten ⟨has.1, by have := has.2; omega⟩

/-- `prepare_ir_buffer`: success leaves the revision and the bytes of the plan. -/
theorem prepareIrBuffer_progress (p : native.Progress uploaded contents target planned mode)
    (maxCommandSize : Nat) {spec : IrBufferSpec} (revision : spec.revision = target spec.slot)
    {source : BufferSource} (reads : Reads source (planned spec.slot))
    {update : Option IrBufferUpdate}
    (complete : ∀ delta, update = some delta → uploaded spec.slot = some delta.previousRevision →
      Complete (contents spec.slot) (planned spec.slot) delta) (answers : PrepareAnswers) :
    Fallible.Ensures (prepareIrBuffer mode maxCommandSize spec source update answers) native
      (fun _ native' => native'.Progress uploaded contents target planned mode)
      fun _ native' => native'.Progress uploaded contents target planned mode := by
  refine .lift_bind (fun _ _ => .bind (irBuffer_progress p spec answers.create) ?_) fun _ _ => p
  rintro buffer native ⟨p, here⟩
  split
  · exact .pure p
  rename_i behind
  refine .lift_bind (fun ranges hranges => .lift_bind (fun _ _ => .lift_bind (fun payload hpayload =>
    .update_bind ?_) fun _ _ => p) fun _ _ => p) fun _ _ => p
  rw [reads.len] at hranges
  obtain ⟨fits, covered⟩ := uploadRanges_covers hranges
  -- The revision is forgotten, and the contents stay.
  generalize hstart : native.setUploaded spec.slot none = start
  have at_modify : ∀ (native : NativeState) revision other,
      bufferAt (native.setUploaded spec.slot revision).buffers other =
        if other = spec.slot
          then (bufferAt native.buffers other).map fun buffer => ⟨buffer.size, revision⟩
          else bufferAt native.buffers other := fun native revision other =>
    NativeState.bufferAt_modify native.buffers _ spec.slot other
  have start_here : bufferAt start.buffers spec.slot = some ⟨buffer.size, none⟩ := by
    rw [← hstart, at_modify, if_pos rfl, here]
    rfl
  have start_uploaded : start.uploaded spec.slot = none := by
    rw [NativeState.uploaded, start_here]
    rfl
  have start_contents : ∀ other, start.contents other = native.contents other := by
    intro other
    rw [← hstart]
    rfl
  have start_others : ∀ other, other ≠ spec.slot → start.uploaded other = native.uploaded other := by
    intro other ne
    rw [NativeState.uploaded, ← hstart, at_modify, if_neg ne]
    rfl
  have start_progress : start.Progress uploaded contents target planned mode := by
    refine p.slot spec.slot ?_ ?_ (fun other ne => ⟨start_others other ne, start_contents other⟩)
      (.inl start_uploaded)
    · rw [← hstart]
      exact p.mode
    · rw [← hstart]
      exact ⟨p.undrawn.accepted, p.undrawn.staged⟩
  have stopped : ∀ {done} {native' : NativeState},
      Uploading start spec.slot (planned spec.slot) mode done native' →
        native'.Progress uploaded contents target planned mode := by
    intro done native' u
    refine start_progress.slot spec.slot u.mode u.undrawn
      (fun other ne => ⟨u.revision_eq other, u.others other ne⟩) (.inl ?_)
    rw [u.revision_eq, start_uploaded]
  have chunks : ∀ chunk ∈ ranges.flatMap (fun range =>
      chunkRanges payload range.stop (range.stop - range.start) range.start),
      chunk.start ≤ chunk.stop ∧ chunk.stop ≤ (planned spec.slot).length := by
    intro chunk member
    obtain ⟨range, hrange, hchunk⟩ := List.mem_flatMap.mp member
    obtain ⟨order, inside⟩ :=
      (chunkRanges_covers (maxPayload_pos hpayload) _ range.start (Nat.le_refl _)).1 chunk hchunk
    exact ⟨order, Nat.le_trans inside (fits range hrange)⟩
  refine .bind (.loop (fun done native' =>
    Uploading start spec.slot (planned spec.slot) mode done native') ?_ ?_) fun _ native' u => ?_
  · exact ⟨start_progress.mode, start_progress.undrawn, rfl, fun _ _ => rfl,
      fun i _ => .inr ⟨fun chunk member => (List.not_mem_nil member).elim, rfl⟩⟩
  · intro done chunk native' member u
    obtain ⟨order, inside⟩ := chunks chunk member
    exact (u.chunk reads answers order inside).imp (fun _ _ next => next)
      fun _ _ same => same ▸ stopped u
  · -- Every byte is in a chunk, or was the plan's before.
    have agrees : Agrees (native'.contents spec.slot) (planned spec.slot) := by
      intro i bound
      rcases u.here i bound with written | ⟨outside, kept⟩
      · exact written
      rw [kept, start_contents]
      rcases covered i bound with ⟨range, hrange, has⟩ | ⟨delta, hdelta, base, unnamed⟩
      · obtain ⟨chunk, hchunk, inside⟩ := (chunkRanges_covers (maxPayload_pos hpayload) _ range.start
          (Nat.le_refl _)).2 i has.1 has.2
        exact absurd inside (outside chunk (List.mem_flatMap.mpr ⟨range, hrange, hchunk⟩))
      · have recorded : native.uploaded spec.slot = some delta.previousRevision := by
          rw [NativeState.uploaded, here]
          exact base
        rcases p.slots spec.slot with ⟨revision, bytes⟩ | forgotten | ⟨prepared, -⟩
        · rw [recorded] at revision
          rw [bytes]
          exact Classical.not_not.mp fun differs =>
            unnamed (complete delta hdelta revision.symm i bound differs)
        · rw [forgotten] at recorded
          cases recorded
        · refine absurd ?_ behind
          rw [NativeState.uploaded, here] at prepared
          exact prepared.trans (congrArg some revision.symm)
    refine .update (start_progress.slot spec.slot u.mode
      ⟨u.undrawn.accepted, u.undrawn.staged⟩ (fun other ne => ⟨?_, ?_⟩) (.inr ⟨?_, agrees⟩))
    · rw [NativeState.uploaded, at_modify, if_neg ne]
      exact u.revision_eq other
    · exact u.others other ne
    · rw [NativeState.uploaded, at_modify, if_pos rfl, u.buffers, start_here]
      exact congrArg some revision

/-- `submit_ir_with` prepares every buffer that is bound. -/
theorem prepareBuffers_progress {shadows : List BufferShadow} {prepared : PreparedBufferOnlyPlan}
    {stream : BufferStream}
    (sources : ∀ slot shadow allocated source, shadows[slot]? = some shadow →
      (prepared.source shadow slot allocated : Except NativeError BufferSource) = .ok source →
        Reads source (planned slot))
    (complete : ∀ slot shadow allocated delta, shadows[slot]? = some shadow →
      prepared.uploadForSlot shadow slot allocated = some delta →
        uploaded slot = some delta.previousRevision → Complete (contents slot) (planned slot) delta)
    {specs : List IrBufferSpec} (revisions : ∀ spec ∈ specs, spec.revision = target spec.slot)
    (slots : List Nat) (p : native.Progress uploaded contents target planned mode) :
    Fallible.Ensures (prepareBuffers mode shadows prepared stream specs slots) native
      (fun _ native' => native'.Progress uploaded contents target planned mode)
      fun _ native' => native'.Progress uploaded contents target planned mode := by
  induction specs generalizing slots native with
  | nil => exact .pure p
  | cons spec rest ih =>
      have later : ∀ spec ∈ rest, spec.revision = target spec.slot :=
        fun other h => revisions other (List.mem_cons_of_mem _ h)
      rw [prepareBuffers]
      refine .lift_bind (fun _ _ => ?_) fun _ _ => p
      split
      · exact ih later slots p
      · refine .lift_bind (fun shadow hshadow => .lift_bind (fun source hsource => ?_) fun _ _ => p)
          fun _ _ => p
        rw [okOr_eq_ok] at hshadow
        refine .bind (prepareIrBuffer_progress p stream.maxCommandSize
          (revisions spec List.mem_cons_self) (sources _ _ _ _ hshadow hsource)
          (fun delta h => complete _ _ _ delta hshadow h) (stream.prepare spec.slot)) fun _ native' p => ?_
        exact .lift_bind (fun _ _ => ih later _ p) fun _ _ => p

end Prepare

end Sgfx.Virgl
