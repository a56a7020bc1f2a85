import Sgfx.Runs

/-!
# Command capacity

Three checks guard the number of recorded commands: `push` keeps one slot free while a pass is
open, a pass begins only when two slots are left, and the end of a pass takes the slot that was
kept.  `CommandEncoder.room` is what an encoder may hold in its state, and every call keeps the
count within it, whether it is accepted or rejected.

A session is run here from any new encoder, one that only validates included, and each call may
see another resource table and other answers of the allocator.

## Main Definitions

* `CommandEncoder.Fits` — the count is within the room
* `Bounded` — a computation that keeps `Fits` and the pass open or closed
* `Session.runCalls`

## Main Results

* `EncoderCall.run_bounded`, `RenderCall.run_bounded`, `ComputeCall.run_bounded`
* `Session.call_fits` — every call keeps the capacity of a session
* `command_capacity` — after every sequence of calls the count is within the limit and the end of
  an open pass is not refused for it
-/

namespace Sgfx

open Fallible

/-! ## Room -/

namespace CommandEncoder

/-- The commands an encoder may hold: the end of an open pass keeps its slot. -/
def room (e : CommandEncoder) : Nat := MAX_COMMANDS - (if e.passOpen then 1 else 0)

/-- The count is within the room, and no command is kept without being counted. -/
structure Fits (e : CommandEncoder) : Prop where
  counted : e.commandCount ≤ e.room
  kept : e.commands.length ≤ e.commandCount

/-- What a recording call may do to the capacity. -/
structure Within (e e' : CommandEncoder) : Prop where
  passOpen : e'.passOpen = e.passOpen
  fits : e.Fits → e'.Fits

variable {e e' : CommandEncoder}

theorem Within.refl (e : CommandEncoder) : e.Within e := ⟨rfl, id⟩

theorem Within.trans {e'' : CommandEncoder} (first : e.Within e') (second : e'.Within e'') :
    e.Within e'' :=
  ⟨second.passOpen.trans first.passOpen, fun fits => second.fits (first.fits fits)⟩

/-- Only the three fields that `Fits` reads matter. -/
theorem Within.of_fields (passOpen : e'.passOpen = e.passOpen)
    (commandCount : e'.commandCount = e.commandCount) (commands : e'.commands = e.commands) :
    e.Within e' := by
  refine ⟨passOpen, fun fits => ⟨?_, ?_⟩⟩
  · rw [room, passOpen, commandCount]
    exact fits.counted
  · rw [commands, commandCount]
    exact fits.kept

theorem room_le (e : CommandEncoder) : e.room ≤ MAX_COMMANDS := Nat.sub_le _ _

theorem append_kept (kept : e.commands.length ≤ e.commandCount) (command : Command) :
    (e.append command).commands.length ≤ (e.append command).commandCount := by
  simp only [append]
  split
  · omega
  · rw [List.length_append, List.length_singleton]
    omega

/-- `push` appends below the room and touches no other counted field. -/
theorem push_within (alloc : Allocator) (command : Command) (e : CommandEncoder) :
    e.Within (push alloc command e).2 := by
  rcases hrun : push alloc command e with ⟨error | u, e'⟩
  · rw [(push_atomic alloc command).unchanged hrun]
    exact .refl e
  · simp only [push, read_bind_run, lift_bind_eq_ok, failIf_eq_ok] at hrun
    obtain ⟨-, below, -, -, hrun⟩ := hrun
    rw [update_run, Prod.mk.injEq] at hrun
    obtain ⟨-, rfl⟩ := hrun
    refine ⟨rfl, fun fits => ⟨?_, append_kept fits.kept command⟩⟩
    show e.commandCount + 1 ≤ e.room
    rw [room]
    omega

end CommandEncoder

/-! ## Bounded computations -/

/-- Every run keeps the capacity of the encoder that `get` finds in the state. -/
structure Bounded {σ α : Type} (get : σ → CommandEncoder) (m : Fallible σ Error α) : Prop where
  within : Steps (fun s s' => (get s).Within (get s')) m

namespace Bounded

open CommandEncoder

variable {σ α β : Type} {get : σ → CommandEncoder} {m : Fallible σ Error α}
  {f : α → Fallible σ Error β}

theorem pure (a : α) : Bounded get (Pure.pure a : Fallible σ Error α) where
  within := Steps.pure (fun _ => .refl _) a

theorem bind (first : Bounded get m) (rest : ∀ a, Bounded get (f a)) : Bounded get (m >>= f) where
  within := Steps.bind (fun _ _ _ => Within.trans) first.within fun a => (rest a).within

theorem lift_bind {x : Except Error α} (rest : ∀ a, Bounded get (f a)) :
    Bounded get ((liftM x : Fallible σ Error α) >>= f) :=
  bind ⟨Steps.lift (fun _ => .refl _) x⟩ rest

theorem read_bind {f : σ → Fallible σ Error β} (rest : ∀ s, Bounded get (f s)) :
    Bounded get ((Fallible.read : Fallible σ Error σ) >>= f) where
  within s := (rest s).within s

theorem ite {c : Prop} [Decidable c] {n : Fallible σ Error α} (hm : Bounded get m)
    (hn : Bounded get n) : Bounded get (if c then m else n) := by
  split <;> assumption

/-- An update that leaves the counted fields alone. -/
theorem update {g : σ → σ} (same : ∀ s, (get s).Within (get (g s))) :
    Bounded get (Fallible.update g : Fallible σ Error Unit) where
  within := same

/-- A computation on the encoder inside a larger state. -/
theorem zoom {put : σ → CommandEncoder → σ} {n : Fallible CommandEncoder Error α}
    (get_put : ∀ s e, get (put s e) = e) (bounded : Bounded id n) :
    Bounded get (Fallible.zoom get put n) where
  within s := by
    show (get s).Within (get (put s (n (get s)).2))
    rw [get_put]
    exact bounded.within (get s)

end Bounded

/-! ## The command encoder -/

namespace CommandEncoder

theorem push_bounded (alloc : Allocator) (command : Command) :
    Bounded id (push alloc command) := ⟨push_within alloc command⟩

theorem writeBuffer_bounded (T : ResourceTable) (alloc : Allocator) (buffer : BufferId)
    (offset : UInt64) (data : ByteSlice) :
    Bounded id (writeBuffer T alloc buffer offset data) := by
  refine .read_bind fun e => ?_
  iterate 6 refine .lift_bind fun _ => ?_
  exact push_bounded alloc _

theorem writeTexture_bounded (T : ResourceTable) (alloc : Allocator) (texture : TextureId)
    (write : TextureWrite) : Bounded id (writeTexture T alloc texture write) := by
  refine .read_bind fun e => ?_
  iterate 9 refine .lift_bind fun _ => ?_
  exact push_bounded alloc _

theorem blitTextureRegionFlipped_bounded (T : ResourceTable) (alloc : Allocator)
    (source : TextureId) (sourceMip : UInt32) (sourceRect : PixelRect)
    (destination : TextureId) (destinationMip : UInt32) (destinationRect : PixelRect)
    (filter : FilterMode) (flips : Bool × Bool) :
    Bounded id (blitTextureRegionFlipped T alloc source sourceMip sourceRect destination
      destinationMip destinationRect filter flips) := by
  refine .read_bind fun e => ?_
  iterate 14 refine .lift_bind fun _ => ?_
  exact push_bounded alloc _

theorem blitTexture_bounded (T : ResourceTable) (alloc : Allocator) (source : TextureId)
    (sourceMip : UInt32) (destination : TextureId) (destinationMip : UInt32)
    (filter : FilterMode) :
    Bounded id (blitTexture T alloc source sourceMip destination destinationMip filter) := by
  iterate 6 refine .lift_bind fun _ => ?_
  exact blitTextureRegionFlipped_bounded T alloc ..

theorem copyTextureToTexture_bounded (T : ResourceTable) (alloc : Allocator)
    (source : TextureId) (sourceRect : PixelRect) (destination : TextureId)
    (destinationRect : PixelRect) :
    Bounded id (copyTextureToTexture T alloc source sourceRect destination destinationRect) := by
  refine .read_bind fun e => ?_
  iterate 11 refine .lift_bind fun _ => ?_
  exact push_bounded alloc _

theorem copyBufferToBuffer_bounded (T : ResourceTable) (alloc : Allocator) (source : BufferId)
    (sourceOffset : UInt64) (destination : BufferId) (destinationOffset size : UInt64) :
    Bounded id (copyBufferToBuffer T alloc source sourceOffset destination destinationOffset
      size) := by
  refine .read_bind fun e => ?_
  iterate 11 refine .lift_bind fun _ => ?_
  exact push_bounded alloc _

theorem announce_within (e : CommandEncoder) (access : AnnouncedAccess) :
    e.Within (e.announce access) := by
  cases access <;> exact .of_fields rfl rfl rfl

theorem announces_within (announced : List AnnouncedAccess) (e : CommandEncoder) :
    e.Within (announced.foldl announce e) := by
  induction announced generalizing e with
  | nil => exact .refl e
  | cons access rest ih => exact (announce_within e access).trans (ih _)

theorem resourceBarrier_bounded (T : ResourceTable) (alloc : Allocator)
    (barrier : ResourceBarrier) : Bounded id (resourceBarrier T alloc barrier) := by
  refine .read_bind fun e => .lift_bind fun _ => .ite ?_ ?_
  · exact (push_bounded alloc _).bind fun _ => .update fun _ => .of_fields rfl rfl rfl
  · refine .lift_bind fun announced => .lift_bind fun _ => ?_
    exact (push_bounded alloc _).bind fun _ => .update fun _ => announces_within announced _

theorem recordWithWrites_bounded (alloc : Allocator) (command : Command)
    (accesses : GroupAccesses) : Bounded id (recordWithWrites alloc command accesses) := by
  refine .lift_bind fun _ => (push_bounded alloc command).bind fun _ => .update fun _ => ?_
  exact .of_fields rfl rfl rfl

end CommandEncoder

open CommandEncoder in
theorem EncoderCall.run_bounded (T : ResourceTable) (alloc : Allocator) (c : EncoderCall) :
    Bounded id (c.run T alloc) := by
  cases c with
  | writeBuffer => exact writeBuffer_bounded ..
  | writeTexture => exact writeTexture_bounded ..
  | blitTexture => exact blitTexture_bounded ..
  | blitTextureRegion => exact blitTextureRegionFlipped_bounded ..
  | blitTextureRegionFlipped => exact blitTextureRegionFlipped_bounded ..
  | copyTextureToTexture => exact copyTextureToTexture_bounded ..
  | copyBufferToBuffer => exact copyBufferToBuffer_bounded ..
  | resourceBarrier => exact resourceBarrier_bounded ..

/-! ## Passes -/

namespace RenderPassEncoder

variable (T : ResourceTable) (alloc : Allocator)

theorem push_bounded (command : Command) :
    Bounded encoder (onEncoder (CommandEncoder.push alloc command)) :=
  .zoom (fun _ _ => rfl) (CommandEncoder.push_bounded alloc command)

/-- Caching a state leaves the encoder alone. -/
theorem setState_bounded {cached : RenderPassEncoder → Bool} {command : Command}
    {store : RenderPassEncoder → RenderPassEncoder} (same : ∀ p, (store p).encoder = p.encoder) :
    Bounded encoder (setState alloc cached command store) := by
  refine .read_bind fun p => .ite (.pure ()) ((push_bounded alloc command).bind fun _ => ?_)
  exact .update fun p => by rw [same]; exact .refl _

theorem setVertexBuffer_bounded (buffer : BufferId) (offset : UInt64) :
    Bounded encoder (setVertexBuffer T alloc buffer offset) :=
  .lift_bind fun _ => setState_bounded alloc fun _ => rfl

theorem recordFixed_bounded (command : Command) (keys : List PendingWrite) :
    Bounded encoder (recordFixed alloc command keys) := by
  refine .lift_bind fun _ => (push_bounded alloc command).bind fun _ => .update fun p => ?_
  exact .of_fields rfl rfl rfl

theorem drawFixed_bounded (vertexCount firstVertex : UInt32) :
    Bounded encoder (drawFixed T alloc vertexCount firstVertex) := by
  refine .read_bind fun p => ?_
  iterate 11 refine .lift_bind fun _ => ?_
  exact recordFixed_bounded alloc _ _

theorem drawIndexedFixed_bounded (indexCount firstIndex : UInt32) (baseVertex : Int32) :
    Bounded encoder (drawIndexedFixed T alloc indexCount firstIndex baseVertex) := by
  refine .read_bind fun p => ?_
  iterate 15 refine .lift_bind fun _ => ?_
  exact recordFixed_bounded alloc _ _

theorem recordProgrammable_bounded (command : Command) (accesses : GroupAccesses) :
    Bounded encoder (recordProgrammable alloc command accesses) := by
  refine .bind (.zoom (fun _ _ => rfl)
    (CommandEncoder.recordWithWrites_bounded alloc command accesses)) fun _ => ?_
  exact .update fun _ => .refl _

theorem drawProgrammable_bounded (count first instances firstInstance : UInt32) :
    Bounded encoder (drawProgrammable T alloc count first instances firstInstance) := by
  refine .read_bind fun p => ?_
  iterate 8 refine .lift_bind fun _ => ?_
  exact recordProgrammable_bounded alloc _ _

theorem drawIndexedProgrammable_bounded (count first : UInt32) (baseVertex : Int32)
    (instances firstInstance : UInt32) :
    Bounded encoder
      (drawIndexedProgrammable T alloc count first baseVertex instances firstInstance) := by
  refine .read_bind fun p => ?_
  iterate 12 refine .lift_bind fun _ => ?_
  exact recordProgrammable_bounded alloc _ _

end RenderPassEncoder

open RenderPassEncoder in
theorem RenderCall.run_bounded (T : ResourceTable) (alloc : Allocator) (c : RenderCall) :
    Bounded encoder (c.run T alloc) := by
  cases c with
  | setPipeline =>
      exact .read_bind fun _ => .lift_bind fun _ => .lift_bind fun _ =>
        setState_bounded alloc fun _ => rfl
  | setVertexBuffer => exact setVertexBuffer_bounded ..
  | setVertexBufferSlot =>
      exact .lift_bind fun _ => .ite (setVertexBuffer_bounded ..)
        (.lift_bind fun _ => setState_bounded alloc fun _ => rfl)
  | setIndexBuffer =>
      refine .lift_bind fun _ => ?_
      iterate 3 refine .lift_bind fun _ => ?_
      exact setState_bounded alloc fun _ => rfl
  | setTexture =>
      refine .read_bind fun _ => ?_
      iterate 5 refine .lift_bind fun _ => ?_
      exact setState_bounded alloc fun _ => rfl
  | setSampler =>
      exact .lift_bind fun _ => .lift_bind fun _ => setState_bounded alloc fun _ => rfl
  | setDrawIndex => exact push_bounded alloc _
  | setUniforms => exact setState_bounded alloc fun _ => rfl
  | setScissor =>
      exact .read_bind fun _ => .lift_bind fun _ => setState_bounded alloc fun _ => rfl
  | setViewport =>
      exact .read_bind fun _ => .lift_bind fun _ => .lift_bind fun _ =>
        setState_bounded alloc fun _ => rfl
  | setPushConstants =>
      refine .read_bind fun _ => ?_
      iterate 3 refine .lift_bind fun _ => ?_
      exact push_bounded alloc _
  | setProgrammablePipeline =>
      exact .read_bind fun _ => .lift_bind fun _ => .lift_bind fun _ =>
        setState_bounded alloc fun _ => rfl
  | setBindGroup =>
      exact .lift_bind fun _ => .lift_bind fun _ => setState_bounded alloc fun _ => rfl
  | draw =>
      exact .read_bind fun _ => .ite (drawProgrammable_bounded ..) (drawFixed_bounded ..)
  | drawIndexed =>
      exact .read_bind fun _ =>
        .ite (drawIndexedProgrammable_bounded ..) (drawIndexedFixed_bounded ..)
  | drawInstanced => exact drawProgrammable_bounded ..
  | drawIndexedInstanced => exact drawIndexedProgrammable_bounded ..

namespace ComputePassEncoder

variable (alloc : Allocator)

theorem push_bounded (command : Command) :
    Bounded encoder (onEncoder (CommandEncoder.push alloc command)) :=
  .zoom (fun _ _ => rfl) (CommandEncoder.push_bounded alloc command)

theorem setState_bounded {cached : ComputePassEncoder → Bool} {command : Command}
    {store : ComputePassEncoder → ComputePassEncoder} (same : ∀ p, (store p).encoder = p.encoder) :
    Bounded encoder (setState alloc cached command store) := by
  refine .read_bind fun p => .ite (.pure ()) ((push_bounded alloc command).bind fun _ => ?_)
  exact .update fun p => by rw [same]; exact .refl _

end ComputePassEncoder

open ComputePassEncoder in
theorem ComputeCall.run_bounded (T : ResourceTable) (alloc : Allocator) (c : ComputeCall) :
    Bounded encoder (c.run T alloc) := by
  cases c with
  | setPushConstants =>
      refine .read_bind fun _ => ?_
      iterate 3 refine .lift_bind fun _ => ?_
      exact push_bounded alloc _
  | setPipeline => exact .lift_bind fun _ => setState_bounded alloc fun _ => rfl
  | setBindGroup =>
      exact .lift_bind fun _ => .lift_bind fun _ => setState_bounded alloc fun _ => rfl
  | dispatch =>
      refine .read_bind fun _ => ?_
      iterate 4 refine .lift_bind fun _ => ?_
      exact .zoom (fun _ _ => rfl) (CommandEncoder.recordWithWrites_bounded alloc _ _)

/-! ## Beginning and ending passes -/

namespace CommandEncoder

variable {T : ResourceTable} {alloc : Allocator} {e e' : CommandEncoder}

/-- With two slots left, a push outside a pass leaves one for the end of the pass. -/
theorem open_fits {command : Command} {u : Unit} (fits : e.Fits)
    (room : e.reservePassBegin = .ok ())
    (h : push alloc command e = (.ok u, e')) : Fits { e' with passOpen := true } := by
  rw [reservePassBegin, failIf_eq_ok] at room
  rw [(push_ok h).2]
  refine ⟨?_, append_kept fits.kept command⟩
  show e.commandCount + 1 ≤ MAX_COMMANDS - 1
  unfold MAX_COMMANDS at room ⊢
  omega

theorem beginRenderPass_fits {desc : RenderPassDesc} {p : RenderPassEncoder} (fits : e.Fits)
    (h : beginRenderPass T alloc desc e = (.ok p, e')) :
    p.encoder.Fits ∧ p.encoder.passOpen = true := by
  simp only [beginRenderPass, read_bind_run, lift_bind_eq_ok] at h
  obtain ⟨-, -, targetDesc, -, -, -, -, -, depthDesc, -, -, -, colorDescs, -, -, -, _, room, h⟩ := h
  obtain ⟨_, pushed, hpush, h⟩ := bind_eq_ok.mp h
  rw [update_bind_run, read_bind_run, pure_run, Prod.mk.injEq, Except.ok.injEq] at h
  obtain ⟨rfl, -⟩ := h
  exact ⟨open_fits fits room hpush, rfl⟩

theorem beginComputePass_fits {p : ComputePassEncoder} (fits : e.Fits)
    (h : beginComputePass alloc e = (.ok p, e')) :
    p.encoder.Fits ∧ p.encoder.passOpen = true := by
  simp only [beginComputePass, read_bind_run, lift_bind_eq_ok] at h
  obtain ⟨-, -, _, room, h⟩ := h
  obtain ⟨_, pushed, hpush, h⟩ := bind_eq_ok.mp h
  rw [update_bind_run, read_bind_run, pure_run, Prod.mk.injEq, Except.ok.injEq] at h
  obtain ⟨rfl, -⟩ := h
  exact ⟨open_fits fits room hpush, rfl⟩

/-- The end of an open pass finds the slot that was kept for it. -/
theorem pushPassEnd_ne_limit {command : Command} (fits : e.Fits) (isOpen : e.passOpen = true) :
    (pushPassEnd alloc command e).1 ≠ .error .commandLimitExceeded := by
  have below := fits.counted
  rw [room, isOpen, if_pos rfl] at below
  have free : failIf (MAX_COMMANDS ≤ e.commandCount) Error.commandLimitExceeded = .ok () := by
    rw [failIf_eq_ok]
    unfold MAX_COMMANDS at below ⊢
    omega
  have reserve : e.reserveCommand alloc ≠ .error .commandLimitExceeded := by
    unfold reserveCommand
    split
    · exact fun failed => by cases failed
    · intro failed
      rw [tryReserve, failIf_eq_error] at failed
      cases failed.2
  have ends : Ensures (pushPassEnd alloc command) e (fun _ _ => True)
      fun error _ => error ≠ .commandLimitExceeded := by
    refine .read_bind (.lift_bind (fun _ _ => .lift_bind (fun _ _ => .update trivial) ?_) ?_)
    · exact fun error failed same => reserve (same ▸ failed)
    · exact fun error failed => by rw [free] at failed; cases failed
  rcases hrun : pushPassEnd alloc command e with ⟨error | u, e'⟩
  · exact fun limit => ends.of_eq_error hrun (Except.error.inj limit)
  · exact fun limit => by cases limit

theorem pushPassEnd_fits {command : Command} {u : Unit} (fits : e.Fits)
    (h : pushPassEnd alloc command e = (.ok u, e')) : Fits { e' with passOpen := false } := by
  simp only [pushPassEnd, read_bind_run, lift_bind_eq_ok, failIf_eq_ok] at h
  obtain ⟨-, below, -, -, h⟩ := h
  rw [update_run, Prod.mk.injEq] at h
  obtain ⟨-, rfl⟩ := h
  refine ⟨?_, append_kept fits.kept command⟩
  show e.commandCount + 1 ≤ MAX_COMMANDS
  omega

end CommandEncoder

/-! ## Sessions -/

namespace Session

/-- Whether the client holds a pass. -/
def inPass : Session → Bool
  | idle _ => false
  | render _ | compute _ => true

/-- The encoder is within its room, and is open while a pass is held. -/
structure Fits (s : Session) : Prop where
  encoder : s.encoder.Fits
  isOpen : s.inPass = true → s.encoder.passOpen = true

variable {T : ResourceTable} {alloc : Allocator} {s : Session}

theorem finishPass_fits {command : Command} {e : CommandEncoder} (fits : e.Fits) :
    (finishPass alloc command e).2.Fits := by
  unfold finishPass
  rcases hrun : CommandEncoder.pushPassEnd alloc command e with ⟨error | _, e'⟩
  · rw [(CommandEncoder.pushPassEnd_atomic alloc command).unchanged hrun]
    exact ⟨fits, Bool.noConfusion⟩
  · exact ⟨CommandEncoder.pushPassEnd_fits fits hrun, Bool.noConfusion⟩

theorem finishPass_ne_limit {command : Command} {e : CommandEncoder} (fits : e.Fits)
    (isOpen : e.passOpen = true) :
    (finishPass alloc command e).1 ≠ .error .commandLimitExceeded := by
  have ended : (CommandEncoder.pushPassEnd alloc command e).1 ≠ .error .commandLimitExceeded :=
    CommandEncoder.pushPassEnd_ne_limit fits isOpen
  unfold finishPass
  rcases hrun : CommandEncoder.pushPassEnd alloc command e with ⟨error | _, e'⟩
  · rw [hrun] at ended
    exact ended
  · exact fun h => by cases h

/-- Every call keeps the capacity, accepted or not. -/
theorem call_fits (fits : s.Fits) (T : ResourceTable) (alloc : Allocator) (c : Call) :
    (s.call T alloc c).2.Fits := by
  cases c with
  | encoder c =>
      cases s with
      | idle e => exact ⟨((c.run_bounded T alloc).within e).fits fits.encoder, Bool.noConfusion⟩
      | render p | compute p => exact fits
  | beginRenderPass desc =>
      cases s with
      | idle e =>
          rcases hrun : CommandEncoder.beginRenderPass T alloc desc e with ⟨error | p, e'⟩
          · have failed : (idle e).call T alloc (.beginRenderPass desc) = (.error error, idle e') := by
              simp [call, hrun]
            rw [failed, (call_atomic (by simp)).unchanged failed]
            exact fits
          · obtain ⟨begun, isOpen⟩ := CommandEncoder.beginRenderPass_fits fits.encoder hrun
            have began : (idle e).call T alloc (.beginRenderPass desc) = (.ok (), render p) := by
              simp [call, hrun]
            rw [began]
            exact ⟨begun, fun _ => isOpen⟩
      | render p | compute p => exact fits
  | beginComputePass =>
      cases s with
      | idle e =>
          rcases hrun : CommandEncoder.beginComputePass alloc e with ⟨error | p, e'⟩
          · have failed : (idle e).call T alloc .beginComputePass = (.error error, idle e') := by
              simp [call, hrun]
            rw [failed, (call_atomic (by simp)).unchanged failed]
            exact fits
          · obtain ⟨begun, isOpen⟩ := CommandEncoder.beginComputePass_fits fits.encoder hrun
            have began : (idle e).call T alloc .beginComputePass = (.ok (), compute p) := by
              simp [call, hrun]
            rw [began]
            exact ⟨begun, fun _ => isOpen⟩
      | render p | compute p => exact fits
  | render c =>
      cases s with
      | render p =>
          have within : p.encoder.Within (c.run T alloc p).2.encoder :=
            (c.run_bounded T alloc).within p
          exact ⟨within.fits fits.encoder, fun _ => within.passOpen.trans (fits.isOpen rfl)⟩
      | idle e | compute p => exact fits
  | compute c =>
      cases s with
      | compute p =>
          have within : p.encoder.Within (c.run T alloc p).2.encoder :=
            (c.run_bounded T alloc).within p
          exact ⟨within.fits fits.encoder, fun _ => within.passOpen.trans (fits.isOpen rfl)⟩
      | idle e | render p => exact fits
  | endPass =>
      cases s with
      | idle e => exact fits
      | render p | compute p => exact finishPass_fits fits.encoder
  | dropPass => exact ⟨fits.encoder, Bool.noConfusion⟩

/-- The end of a pass that is held is not refused for the limit. -/
theorem endPass_ne_limit (fits : s.Fits) (T : ResourceTable) (alloc : Allocator) :
    (s.call T alloc .endPass).1 ≠ .error .commandLimitExceeded := by
  cases s with
  | idle e => exact fun h => by cases h
  | render p | compute p => exact finishPass_ne_limit fits.encoder (fits.isOpen rfl)

/-- One call with the table and the allocator's answers it meets. -/
structure Made where
  table : ResourceTable
  alloc : Allocator
  call : Call

/-- The session after a sequence of calls, whatever their outcomes. -/
def runCalls (s : Session) (calls : List Made) : Session :=
  calls.foldl (fun s made => (s.call made.table made.alloc made.call).2) s

/-- The session of a new encoder, for recording or for validation only. -/
def start (validationOnly : Bool) : Session :=
  .idle (if validationOnly then .forValidation else .new)

theorem start_fits (validationOnly : Bool) : (start validationOnly).Fits := by
  cases validationOnly <;>
    exact ⟨⟨Nat.zero_le _, Nat.le_refl _⟩, Bool.noConfusion⟩

theorem runCalls_fits (fits : s.Fits) (calls : List Made) : (s.runCalls calls).Fits := by
  induction calls generalizing s with
  | nil => exact fits
  | cons made rest ih => exact ih (call_fits fits made.table made.alloc made.call)

end Session

/-- After every sequence of calls the recorded commands are within the limit, and while a pass is
open, held by the client or dropped, its end is not refused for it. -/
theorem command_capacity (validationOnly : Bool) (calls : List Session.Made) :
    let s := (Session.start validationOnly).runCalls calls
    s.encoder.commandCount ≤ MAX_COMMANDS ∧ s.encoder.commands.length ≤ MAX_COMMANDS ∧
      (∀ T alloc, (s.call T alloc .endPass).1 ≠ .error .commandLimitExceeded) ∧
      (s.encoder.passOpen = true → ∀ alloc command,
        (CommandEncoder.pushPassEnd alloc command s.encoder).1 ≠ .error .commandLimitExceeded) := by
  intro s
  have fits : s.Fits := Session.runCalls_fits (Session.start_fits validationOnly) calls
  have counted := Nat.le_trans fits.encoder.counted s.encoder.room_le
  exact ⟨counted, Nat.le_trans fits.encoder.kept counted, fun T alloc => Session.endPass_ne_limit fits T alloc,
    fun isOpen alloc command => CommandEncoder.pushPassEnd_ne_limit fits.encoder isOpen⟩

end Sgfx
