import Sgfx.Session

/-!
# Rejected calls leave no trace

Every recording call makes its checks and reservations first, then one `push`,
which is atomic, and after it only updates that cannot fail.  The rules of
`Fallible.Atomic` follow that shape, one rule for each statement, so each call's
lemma is its outline.

## Main Results

* `CommandEncoder.push_atomic`
* `EncoderCall.run_atomic`, `RenderCall.run_atomic`, `ComputeCall.run_atomic`
* `Session.call_atomic` — the three together
* `rejected_call_is_noop` — every continuation is as without the call
-/

namespace Sgfx

open Fallible

/-! ## The command encoder -/

namespace CommandEncoder

theorem push_atomic (alloc : Allocator) (command : Command) : Atomic (push alloc command) :=
  .read_bind fun _ => .lift_bind fun _ _ => .lift_bind fun _ _ => .of_total (.update _)

theorem writeBuffer_atomic (T : ResourceTable) (alloc : Allocator) (buffer : BufferId)
    (offset : UInt64) (data : ByteSlice) : Atomic (writeBuffer T alloc buffer offset data) := by
  refine .read_bind fun e => ?_
  iterate 6 refine .lift_bind fun _ _ => ?_
  exact push_atomic alloc _

theorem writeTexture_atomic (T : ResourceTable) (alloc : Allocator) (texture : TextureId)
    (write : TextureWrite) : Atomic (writeTexture T alloc texture write) := by
  refine .read_bind fun e => ?_
  iterate 9 refine .lift_bind fun _ _ => ?_
  exact push_atomic alloc _

theorem blitTextureRegionFlipped_atomic (T : ResourceTable) (alloc : Allocator)
    (source : TextureId) (sourceMip : UInt32) (sourceRect : PixelRect)
    (destination : TextureId) (destinationMip : UInt32) (destinationRect : PixelRect)
    (filter : FilterMode) (flips : Bool × Bool) :
    Atomic (blitTextureRegionFlipped T alloc source sourceMip sourceRect destination
      destinationMip destinationRect filter flips) := by
  refine .read_bind fun e => ?_
  iterate 14 refine .lift_bind fun _ _ => ?_
  exact push_atomic alloc _

theorem blitTexture_atomic (T : ResourceTable) (alloc : Allocator) (source : TextureId)
    (sourceMip : UInt32) (destination : TextureId) (destinationMip : UInt32)
    (filter : FilterMode) :
    Atomic (blitTexture T alloc source sourceMip destination destinationMip filter) := by
  iterate 6 refine .lift_bind fun _ _ => ?_
  exact blitTextureRegionFlipped_atomic ..

theorem copyTextureToTexture_atomic (T : ResourceTable) (alloc : Allocator)
    (source : TextureId) (sourceRect : PixelRect) (destination : TextureId)
    (destinationRect : PixelRect) :
    Atomic (copyTextureToTexture T alloc source sourceRect destination destinationRect) := by
  refine .read_bind fun e => ?_
  iterate 11 refine .lift_bind fun _ _ => ?_
  exact push_atomic alloc _

theorem copyBufferToBuffer_atomic (T : ResourceTable) (alloc : Allocator) (source : BufferId)
    (sourceOffset : UInt64) (destination : BufferId) (destinationOffset size : UInt64) :
    Atomic (copyBufferToBuffer T alloc source sourceOffset destination destinationOffset
      size) := by
  refine .read_bind fun e => ?_
  iterate 11 refine .lift_bind fun _ _ => ?_
  exact push_atomic alloc _

theorem resourceBarrier_atomic (T : ResourceTable) (alloc : Allocator)
    (barrier : ResourceBarrier) : Atomic (resourceBarrier T alloc barrier) := by
  refine .read_bind fun e => .lift_bind fun _ _ => .ite ?_ ?_
  · exact (push_atomic alloc _).bind_total fun _ => .update _
  · refine .lift_bind fun _ _ => .lift_bind fun _ _ => ?_
    exact (push_atomic alloc _).bind_total fun _ => .update _

theorem beginRenderPass_atomic (T : ResourceTable) (alloc : Allocator) (desc : RenderPassDesc) :
    Atomic (beginRenderPass T alloc desc) := by
  refine .read_bind fun e => ?_
  iterate 9 refine .lift_bind fun _ _ => ?_
  exact (push_atomic alloc _).bind_total fun _ => (Total.update _).bind fun _ =>
    Total.read.bind fun _ => .pure _

theorem beginComputePass_atomic (alloc : Allocator) : Atomic (beginComputePass alloc) := by
  refine .read_bind fun e => .lift_bind fun _ _ => .lift_bind fun _ _ => ?_
  exact (push_atomic alloc _).bind_total fun _ => (Total.update _).bind fun _ =>
    Total.read.bind fun _ => .pure _

theorem recordWithWrites_atomic (alloc : Allocator) (command : Command)
    (accesses : GroupAccesses) : Atomic (recordWithWrites alloc command accesses) :=
  .lift_bind fun _ _ => (push_atomic alloc _).bind_total fun _ => .update _

end CommandEncoder

theorem EncoderCall.run_atomic (T : ResourceTable) (alloc : Allocator) (call : EncoderCall) :
    Atomic (call.run T alloc) := by
  cases call with
  | writeBuffer => exact CommandEncoder.writeBuffer_atomic ..
  | writeTexture => exact CommandEncoder.writeTexture_atomic ..
  | blitTexture => exact CommandEncoder.blitTexture_atomic ..
  | blitTextureRegion => exact CommandEncoder.blitTextureRegionFlipped_atomic ..
  | blitTextureRegionFlipped => exact CommandEncoder.blitTextureRegionFlipped_atomic ..
  | copyTextureToTexture => exact CommandEncoder.copyTextureToTexture_atomic ..
  | copyBufferToBuffer => exact CommandEncoder.copyBufferToBuffer_atomic ..
  | resourceBarrier => exact CommandEncoder.resourceBarrier_atomic ..

/-! ## Render passes -/

namespace RenderPassEncoder

theorem onEncoder_atomic {α : Type} {m : Fallible CommandEncoder Error α} (h : Atomic m) :
    Atomic (onEncoder m) :=
  Atomic.zoom (fun _ => rfl) h

theorem setState_atomic (alloc : Allocator) (cached : RenderPassEncoder → Bool)
    (command : Command) (store : RenderPassEncoder → RenderPassEncoder) :
    Atomic (setState alloc cached command store) :=
  .read_bind fun _ => .ite (.pure _) <|
    (onEncoder_atomic (CommandEncoder.push_atomic alloc _)).bind_total fun _ => .update _

theorem setVertexBuffer_atomic (T : ResourceTable) (alloc : Allocator) (buffer : BufferId)
    (offset : UInt64) : Atomic (setVertexBuffer T alloc buffer offset) :=
  .lift_bind fun _ _ => setState_atomic ..

theorem recordFixed_atomic (alloc : Allocator) (command : Command) (keys : List PendingWrite) :
    Atomic (recordFixed alloc command keys) :=
  .lift_bind fun _ _ =>
    (onEncoder_atomic (CommandEncoder.push_atomic alloc _)).bind_total fun _ => .update _

theorem recordProgrammable_atomic (alloc : Allocator) (command : Command)
    (accesses : GroupAccesses) : Atomic (recordProgrammable alloc command accesses) :=
  (onEncoder_atomic (CommandEncoder.recordWithWrites_atomic alloc _ _)).bind_total
    fun _ => .update _

theorem drawProgrammable_atomic (T : ResourceTable) (alloc : Allocator)
    (count first instances firstInstance : UInt32) :
    Atomic (drawProgrammable T alloc count first instances firstInstance) := by
  refine .read_bind fun p => ?_
  iterate 8 refine .lift_bind fun _ _ => ?_
  exact recordProgrammable_atomic ..

theorem drawIndexedProgrammable_atomic (T : ResourceTable) (alloc : Allocator)
    (count first : UInt32) (baseVertex : Int32) (instances firstInstance : UInt32) :
    Atomic (drawIndexedProgrammable T alloc count first baseVertex instances
      firstInstance) := by
  refine .read_bind fun p => ?_
  iterate 12 refine .lift_bind fun _ _ => ?_
  exact recordProgrammable_atomic ..

theorem drawFixed_atomic (T : ResourceTable) (alloc : Allocator)
    (vertexCount firstVertex : UInt32) : Atomic (drawFixed T alloc vertexCount firstVertex) := by
  refine .read_bind fun p => ?_
  iterate 11 refine .lift_bind fun _ _ => ?_
  exact recordFixed_atomic ..

theorem drawIndexedFixed_atomic (T : ResourceTable) (alloc : Allocator)
    (indexCount firstIndex : UInt32) (baseVertex : Int32) :
    Atomic (drawIndexedFixed T alloc indexCount firstIndex baseVertex) := by
  refine .read_bind fun p => ?_
  iterate 15 refine .lift_bind fun _ _ => ?_
  exact recordFixed_atomic ..

end RenderPassEncoder

theorem RenderCall.run_atomic (T : ResourceTable) (alloc : Allocator) (call : RenderCall) :
    Atomic (call.run T alloc) := by
  cases call with
  | setPipeline =>
      exact .read_bind fun _ => .lift_bind fun _ _ => .lift_bind fun _ _ =>
        RenderPassEncoder.setState_atomic ..
  | setVertexBuffer => exact RenderPassEncoder.setVertexBuffer_atomic ..
  | setVertexBufferSlot =>
      exact .lift_bind fun _ _ => .ite (RenderPassEncoder.setVertexBuffer_atomic ..)
        (.lift_bind fun _ _ => RenderPassEncoder.setState_atomic ..)
  | setIndexBuffer =>
      refine .lift_bind fun _ _ => .lift_bind fun _ _ => .lift_bind fun _ _ =>
        .lift_bind fun _ _ => ?_
      exact RenderPassEncoder.setState_atomic ..
  | setTexture =>
      refine .read_bind fun _ => .lift_bind fun _ _ => .lift_bind fun _ _ =>
        .lift_bind fun _ _ => .lift_bind fun _ _ => .lift_bind fun _ _ => ?_
      exact RenderPassEncoder.setState_atomic ..
  | setSampler =>
      exact .lift_bind fun _ _ => .lift_bind fun _ _ => RenderPassEncoder.setState_atomic ..
  | setDrawIndex =>
      exact RenderPassEncoder.onEncoder_atomic (CommandEncoder.push_atomic alloc _)
  | setUniforms => exact RenderPassEncoder.setState_atomic ..
  | setScissor =>
      exact .read_bind fun _ => .lift_bind fun _ _ => RenderPassEncoder.setState_atomic ..
  | setViewport | setProgrammablePipeline =>
      exact .read_bind fun _ => .lift_bind fun _ _ => .lift_bind fun _ _ =>
        RenderPassEncoder.setState_atomic ..
  | setPushConstants =>
      refine .read_bind fun _ => .lift_bind fun _ _ => .lift_bind fun _ _ =>
        .lift_bind fun _ _ => ?_
      exact RenderPassEncoder.onEncoder_atomic (CommandEncoder.push_atomic alloc _)
  | setBindGroup =>
      exact .lift_bind fun _ _ => .lift_bind fun _ _ => RenderPassEncoder.setState_atomic ..
  | draw =>
      exact .read_bind fun _ => .ite (RenderPassEncoder.drawProgrammable_atomic ..)
        (RenderPassEncoder.drawFixed_atomic ..)
  | drawIndexed =>
      exact .read_bind fun _ => .ite (RenderPassEncoder.drawIndexedProgrammable_atomic ..)
        (RenderPassEncoder.drawIndexedFixed_atomic ..)
  | drawInstanced => exact RenderPassEncoder.drawProgrammable_atomic ..
  | drawIndexedInstanced => exact RenderPassEncoder.drawIndexedProgrammable_atomic ..

/-! ## Compute passes -/

namespace ComputePassEncoder

theorem onEncoder_atomic {α : Type} {m : Fallible CommandEncoder Error α} (h : Atomic m) :
    Atomic (onEncoder m) :=
  Atomic.zoom (fun _ => rfl) h

theorem setState_atomic (alloc : Allocator) (cached : ComputePassEncoder → Bool)
    (command : Command) (store : ComputePassEncoder → ComputePassEncoder) :
    Atomic (setState alloc cached command store) :=
  .read_bind fun _ => .ite (.pure _) <|
    (onEncoder_atomic (CommandEncoder.push_atomic alloc _)).bind_total fun _ => .update _

end ComputePassEncoder

theorem ComputeCall.run_atomic (T : ResourceTable) (alloc : Allocator) (call : ComputeCall) :
    Atomic (call.run T alloc) := by
  cases call with
  | setPushConstants =>
      refine .read_bind fun _ => .lift_bind fun _ _ => .lift_bind fun _ _ =>
        .lift_bind fun _ _ => ?_
      exact ComputePassEncoder.onEncoder_atomic (CommandEncoder.push_atomic alloc _)
  | setPipeline => exact .lift_bind fun _ _ => ComputePassEncoder.setState_atomic ..
  | setBindGroup =>
      exact .lift_bind fun _ _ => .lift_bind fun _ _ => ComputePassEncoder.setState_atomic ..
  | dispatch =>
      refine .read_bind fun _ => .lift_bind fun _ _ => .lift_bind fun _ _ =>
        .lift_bind fun _ _ => .lift_bind fun _ _ => ?_
      exact ComputePassEncoder.onEncoder_atomic
        (CommandEncoder.recordWithWrites_atomic alloc _ _)

/-! ## Sessions -/

namespace Session

/-- A rejected call other than the end of a pass leaves the session as it was. -/
theorem call_atomic {T : ResourceTable} {alloc : Allocator} {c : Call} (notEnd : c ≠ .endPass) :
    Atomic (call T alloc c) := by
  refine ⟨fun {s s' error} h => ?_⟩
  cases c with
  | encoder c =>
      cases s with
      | idle e =>
          match hrun : c.run T alloc e with
          | (r, e') =>
              simp only [call, hrun, Prod.mk.injEq] at h
              obtain ⟨rfl, rfl⟩ := h
              rw [(EncoderCall.run_atomic T alloc c).unchanged hrun]
      | render p | compute p => simp [call] at h
  | beginRenderPass desc =>
      cases s with
      | idle e =>
          match hrun : CommandEncoder.beginRenderPass T alloc desc e with
          | (.ok p, e') => simp [call, hrun] at h
          | (.error x, e') =>
              simp only [call, hrun, Prod.mk.injEq] at h
              rw [← h.2, (CommandEncoder.beginRenderPass_atomic T alloc desc).unchanged hrun]
      | render p | compute p => simp [call] at h
  | beginComputePass =>
      cases s with
      | idle e =>
          match hrun : CommandEncoder.beginComputePass alloc e with
          | (.ok p, e') => simp [call, hrun] at h
          | (.error x, e') =>
              simp only [call, hrun, Prod.mk.injEq] at h
              rw [← h.2, (CommandEncoder.beginComputePass_atomic alloc).unchanged hrun]
      | render p | compute p => simp [call] at h
  | render c =>
      cases s with
      | render p =>
          match hrun : c.run T alloc p with
          | (r, p') =>
              simp only [call, hrun, Prod.mk.injEq] at h
              obtain ⟨rfl, rfl⟩ := h
              rw [(RenderCall.run_atomic T alloc c).unchanged hrun]
      | idle e | compute p => simp [call] at h
  | compute c =>
      cases s with
      | compute p =>
          match hrun : c.run T alloc p with
          | (r, p') =>
              simp only [call, hrun, Prod.mk.injEq] at h
              obtain ⟨rfl, rfl⟩ := h
              rw [(ComputeCall.run_atomic T alloc c).unchanged hrun]
      | idle e | render p => simp [call] at h
  | endPass => exact absurd rfl notEnd
  | dropPass => simp [call] at h

end Session

/-- **Rejected recording calls are no-ops.**  In every session, a call other than
the end of a pass that returns an error leaves every field of the session as it
was, and nothing is logged, so that every continuation runs as if the call had
not been made. -/
theorem rejected_call_is_noop (w : World) (alloc : Allocator) (c : Call) (error : Error)
    (notEnd : c ≠ .endPass)
    (rejected : (w.session.call w.table alloc c).1 = .error error) :
    (w.session.call w.table alloc c).2 = w.session ∧ w.step (.call alloc c) = w ∧
      ∀ rest : List Event, (w.step (.call alloc c)).run rest = w.run rest := by
  have unchanged : (w.session.call w.table alloc c).2 = w.session :=
    (Session.call_atomic notEnd).unchanged (Prod.ext rejected rfl)
  have noop : w.step (.call alloc c) = w := by
    rw [World.step_call]
    split
    · simp [unchanged]
    · rfl
  exact ⟨unchanged, noop, fun rest => by rw [noop]⟩

/-- An allocator that grants every reservation. -/
def grantAll : Allocator := fun _ => true

/-- An upload to a buffer announced as a copy source is rejected. -/
theorem rejected_call_is_noop_upload :
    let w := (World.new 1 (by decide)).run
      [.table true (.defineBuffer sampleBuffer),
        .call grantAll (.encoder (.resourceBarrier
          (.buffer ⟨1, 0, 0⟩ .copyDestination .copySource)))]
    w.step (.call grantAll (.encoder (.writeBuffer ⟨1, 0, 0⟩ 0 ⟨64, 4, by decide, by decide⟩))) =
      w :=
  (rejected_call_is_noop _ grantAll
    (.encoder (.writeBuffer ⟨1, 0, 0⟩ 0 ⟨64, 4, by decide, by decide⟩)) .invalidResourceAccess
    (by simp) rfl).2.1

end Sgfx
