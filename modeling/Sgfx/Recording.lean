import Sgfx.Ledger

/-!
# What each call records

Every recording call either fails, repeats a state that is already in force, or
records exactly one command.  A recorded command fits the ledger
(`Command.Admissible`) and changes the encoder as `CommandEncoder.recorded` says.
This module takes each call apart once; the results about recordings use only
these facts.

## Main Definitions

* `CommandEncoder.Records` — a command was recorded

## Main Results

* `EncoderCall.run_ok`
-/

namespace Sgfx

open Fallible

/-- A command was recorded, under the table and bindings given. -/
structure CommandEncoder.Records (e : CommandEncoder) (T : ResourceTable) (b : Bindings)
    (command : Command) (e' : CommandEncoder) : Prop where
  admissible : command.Admissible T b e
  result : e' = e.recorded T b command

namespace CommandEncoder

variable {T : ResourceTable} {alloc : Allocator} {b : Bindings} {e e' : CommandEncoder}
  {u : Unit}

/-! ## Pushing -/

theorem push_ok {command : Command} (h : push alloc command e = (.ok u, e')) :
    e.commandCount < MAX_COMMANDS ∧
      e' = (e.consumeAccesses (consumedByPush command)).append command := by
  simp only [push, read_bind_run, lift_bind_eq_ok, failIf_eq_ok] at h
  obtain ⟨-, room, -, -, hupdate⟩ := h
  rw [update_run, Prod.mk.injEq] at hupdate
  exact ⟨by omega, hupdate.2.symm⟩

/-- A push of a command that uses no bound resources. -/
theorem push_recorded_pass {command : Command} (h : push alloc command e = (.ok u, e'))
    (notBarrier : ∀ barrier, command ≠ .resourceBarrier barrier)
    (used : command.usedKeys T b = []) (written : command.writtenKeys T b = []) :
    { e' with passOpen := command.passOpenAfter e.passOpen } = e.recorded T b command := by
  rw [(push_ok h).2, recorded]
  · rw [used, written, List.append_nil, List.append_nil]
    rfl
  · exact notBarrier _
  · exact notBarrier

/-- A push of a command that also leaves the pass open or closed. -/
theorem push_recorded {command : Command} (h : push alloc command e = (.ok u, e'))
    (notBarrier : ∀ barrier, command ≠ .resourceBarrier barrier)
    (used : command.usedKeys T b = []) (written : command.writtenKeys T b = [])
    (passOpen : command.passOpenAfter e.passOpen = e.passOpen) :
    e' = e.recorded T b command := by
  rw [← push_recorded_pass h notBarrier used written, passOpen, (push_ok h).2]
  rfl

/-! ## Uploads, copies and blits -/

theorem writeBuffer_ok {buffer : BufferId} {offset : UInt64} {data : ByteSlice}
    (h : writeBuffer T alloc buffer offset data e = (.ok u, e')) :
    e.Records T b (.writeBuffer buffer offset data) e' := by
  simp only [writeBuffer, read_bind_run, lift_bind_eq_ok, checkBufferAccess_eq_ok] at h
  obtain ⟨-, -, desc, hdesc, -, -, -, -, -, -, -, hadmits, hpush⟩ := h
  refine ⟨⟨?_, by simp [Command.usedKeys], by simp [Command.sources]⟩,
    push_recorded hpush (by simp) rfl rfl rfl⟩
  rw [Command.accesses, List.forall_mem_singleton]
  exact ⟨⟨desc, hdesc⟩, hadmits⟩

theorem writeTexture_ok {texture : TextureId} {write : TextureWrite}
    (h : writeTexture T alloc texture write e = (.ok u, e')) :
    e.Records T b (.writeTexture texture write) e' := by
  simp only [writeTexture, read_bind_run, lift_bind_eq_ok, checkTextureMipAccess_eq_ok] at h
  obtain ⟨-, -, -, -, -, -, -, -, -, -, -, -, -, -, -, -, -, hadmits, hpush⟩ := h
  refine ⟨⟨?_, by simp [Command.usedKeys], by simp [Command.sources]⟩,
    push_recorded hpush (by simp) rfl rfl rfl⟩
  rw [Command.accesses, List.forall_mem_singleton]
  exact hadmits

theorem blitTextureRegionFlipped_ok {source : TextureId} {sourceMip : UInt32}
    {sourceRect : PixelRect} {destination : TextureId} {destinationMip : UInt32}
    {destinationRect : PixelRect} {filter : FilterMode} {flips : Bool × Bool}
    (h : blitTextureRegionFlipped T alloc source sourceMip sourceRect destination
      destinationMip destinationRect filter flips e = (.ok u, e')) :
    e.Records T b (.blitTexture source sourceMip destination destinationMip sourceRect
      destinationRect filter flips) e' := by
  simp only [blitTextureRegionFlipped, read_bind_run, lift_bind_eq_ok,
    checkTextureMipAccess_eq_ok] at h
  obtain ⟨-, -, -, -, -, -, -, -, -, -, -, -, -, -, -, -, -, -, -, -, -, -, -, -, -,
    hsource, -, hdestination, hpush⟩ := h
  refine ⟨⟨?_, by simp [Command.usedKeys], by simp [Command.sources]⟩,
    push_recorded hpush (by simp) rfl rfl rfl⟩
  rw [Command.accesses, List.forall_mem_cons, List.forall_mem_singleton]
  exact ⟨hsource, hdestination⟩

theorem copyTextureToTexture_ok {source : TextureId} {sourceRect : PixelRect}
    {destination : TextureId} {destinationRect : PixelRect}
    (h : copyTextureToTexture T alloc source sourceRect destination destinationRect e =
      (.ok u, e')) :
    e.Records T b (.copyTextureToTexture source sourceRect destination destinationRect) e' := by
  simp only [copyTextureToTexture, read_bind_run, lift_bind_eq_ok,
    checkTextureMipAccess_eq_ok] at h
  obtain ⟨-, -, -, -, -, -, -, -, -, -, -, -, -, -, -, -, -, -, -, hsource, -, hdestination,
    hpush⟩ := h
  refine ⟨⟨?_, by simp [Command.usedKeys], by simp [Command.sources]⟩,
    push_recorded hpush (by simp) rfl rfl rfl⟩
  rw [Command.accesses, List.forall_mem_cons, List.forall_mem_singleton]
  exact ⟨hsource, hdestination⟩

theorem copyBufferToBuffer_ok {source : BufferId} {sourceOffset : UInt64}
    {destination : BufferId} {destinationOffset size : UInt64}
    (h : copyBufferToBuffer T alloc source sourceOffset destination destinationOffset size e =
      (.ok u, e')) :
    e.Records T b (.copyBufferToBuffer source sourceOffset destination destinationOffset size)
      e' := by
  simp only [copyBufferToBuffer, read_bind_run, lift_bind_eq_ok, checkBufferAccess_eq_ok] at h
  obtain ⟨-, -, src, hsrc, dst, hdst, -, -, -, -, -, -, -, -, -, -, -, -, -, hsource, -,
    hdestination, hpush⟩ := h
  refine ⟨⟨?_, by simp [Command.usedKeys], by simp [Command.sources]⟩,
    push_recorded hpush (by simp) rfl rfl rfl⟩
  rw [Command.accesses, List.forall_mem_cons, List.forall_mem_singleton]
  exact ⟨⟨⟨src, hsrc⟩, hsource⟩, ⟨dst, hdst⟩, hdestination⟩

/-! ## Barriers -/

theorem validateTextureTransition_ok {texture : TextureId} {mip : UInt32}
    {before after : TextureAccess}
    (h : validateTextureTransition T e texture mip before after = .ok u) :
    T.Declares (.mip texture mip) ∧ e.Agrees (.texture texture mip before) ∧
      (e.Pending (.mip texture mip) → before = .storageWrite) := by
  simp only [validateTextureTransition, except_bind_eq_ok, failIf_eq_ok,
    mipPending_eq_true] at h
  obtain ⟨desc, hdesc, extent, hextent, -, -, -, -, -, hpending, hagrees⟩ := h
  exact ⟨⟨desc, hdesc, TextureDesc.mem_mipLevels.mpr
      (TextureDesc.declared_of_mipExtent hextent)⟩, mipAgrees_iff.mp hagrees,
    fun pending => by_contra fun hne => hpending ⟨pending, hne⟩⟩

/-- The transitions of a barrier are its announcements, and its sources fit the
ledger. -/
theorem transitions_ok {barrier : ResourceBarrier} {announced : List AnnouncedAccess}
    (h : e.transitions T alloc barrier = .ok announced) :
    announced = barrier.announces T ∧ ∀ a ∈ barrier.sources T, T.Declares a.location ∧
      e.Agrees a ∧ (e.Pending a.location → barrier.covers a.location) := by
  cases barrier with
  | global =>
      rw [transitions, Except.ok.injEq] at h
      exact ⟨h.symm, by simp [ResourceBarrier.sources]⟩
  | buffer id before after =>
      simp only [transitions, except_bind_eq_ok, failIf_eq_ok] at h
      obtain ⟨desc, hdesc, -, -, -, -, -, hpending, -, hagrees, -, -, hannounced⟩ := h
      refine ⟨(Except.ok.inj hannounced).symm, ?_⟩
      rw [ResourceBarrier.sources, List.forall_mem_singleton]
      refine ⟨⟨desc, hdesc⟩, bufferAgrees_iff.mp hagrees, fun pending => ⟨rfl, ?_⟩⟩
      by_contra hne
      exact hpending ⟨by simpa [Pending, AnnouncedAccess.location] using pending, hne⟩
  | texture id before after =>
      simp only [transitions, except_bind_eq_ok, forEach_eq_ok] at h
      obtain ⟨desc, hdesc, -, -, -, hmips, hannounced⟩ := h
      refine ⟨?_, ?_⟩
      · rw [ResourceBarrier.announces, textureAccesses, hdesc]
        exact (Except.ok.inj hannounced).symm
      · rw [ResourceBarrier.sources, textureAccesses, hdesc, List.forall_mem_map]
        intro mip hmip
        obtain ⟨declared, hagrees, hpending⟩ := validateTextureTransition_ok (hmips mip hmip)
        exact ⟨declared, hagrees, fun pending => ⟨rfl, hpending pending⟩⟩
  | textureMip id mip before after =>
      simp only [transitions, except_bind_eq_ok] at h
      obtain ⟨_, hmip, -, -, hannounced⟩ := h
      refine ⟨(Except.ok.inj hannounced).symm, ?_⟩
      rw [ResourceBarrier.sources, List.forall_mem_singleton]
      obtain ⟨declared, hagrees, hpending⟩ := validateTextureTransition_ok hmip
      exact ⟨declared, hagrees, fun pending => ⟨rfl, rfl, hpending pending⟩⟩

theorem resourceBarrier_ok {barrier : ResourceBarrier}
    (h : resourceBarrier T alloc barrier e = (.ok u, e')) :
    e.Records T b (.resourceBarrier barrier) e' := by
  simp only [resourceBarrier, read_bind_run, lift_bind_eq_ok] at h
  obtain ⟨-, -, h⟩ := h
  split at h
  · rename_i hglobal
    subst hglobal
    obtain ⟨_, mid, hpush, hupdate⟩ := bind_eq_ok.mp h
    rw [update_run, Prod.mk.injEq] at hupdate
    refine ⟨⟨by simp [Command.accesses], by simp [Command.usedKeys],
      by simp [Command.sources, ResourceBarrier.sources]⟩, ?_⟩
    rw [← hupdate.2, (push_ok hpush).2]
    simp [recorded, consumedByPush]
  · rename_i notGlobal
    obtain ⟨announced, htransitions, -, -, h⟩ := by
      simpa only [lift_bind_eq_ok] using h
    obtain ⟨_, mid, hpush, hupdate⟩ := bind_eq_ok.mp h
    rw [update_run, Prod.mk.injEq] at hupdate
    obtain ⟨rfl, hsources⟩ := transitions_ok htransitions
    refine ⟨⟨by simp [Command.accesses], by simp [Command.usedKeys], fun a ha => ?_⟩, ?_⟩
    · obtain ⟨declared, hagrees, hcovers⟩ := hsources a ha
      exact ⟨declared, hagrees, fun pending => ⟨barrier, rfl, hcovers pending⟩⟩
    · rw [← hupdate.2, (push_ok hpush).2]
      cases barrier with
      | global => exact absurd rfl notGlobal
      | _ => simp [recorded, consumedByPush]

end CommandEncoder

open CommandEncoder in
/-- A successful call of the command encoder records the command it asks for. -/
theorem EncoderCall.run_ok {T : ResourceTable} {alloc : Allocator} {b : Bindings}
    {e e' : CommandEncoder} {u : Unit} {call : EncoderCall}
    (h : call.run T alloc e = (.ok u, e')) :
    ∃ command, call.Asks command ∧ e.Records T b command e' := by
  cases call with
  | writeBuffer => exact ⟨_, rfl, writeBuffer_ok h⟩
  | writeTexture => exact ⟨_, rfl, writeTexture_ok h⟩
  | blitTexture =>
      simp only [run, CommandEncoder.blitTexture, lift_bind_eq_ok] at h
      obtain ⟨_, _, _, _, _, _, _, _, _, _, _, _, h⟩ := h
      exact ⟨_, ⟨_, _, rfl⟩, blitTextureRegionFlipped_ok h⟩
  | blitTextureRegion => exact ⟨_, rfl, blitTextureRegionFlipped_ok h⟩
  | blitTextureRegionFlipped => exact ⟨_, rfl, blitTextureRegionFlipped_ok h⟩
  | copyTextureToTexture => exact ⟨_, rfl, copyTextureToTexture_ok h⟩
  | copyBufferToBuffer => exact ⟨_, rfl, copyBufferToBuffer_ok h⟩
  | resourceBarrier => exact ⟨_, rfl, resourceBarrier_ok h⟩

end Sgfx
