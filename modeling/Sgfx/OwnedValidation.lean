import Sgfx.Leniency
import Sgfx.Runs
import Sgfx.Library.Nesting

/-!
# Validation of owned recordings

Validation replays a recording on an encoder that counts its commands without keeping them.  It
answers what recording answers, and what is recorded consists of transfers and barriers outside
passes and of complete passes.

## Main Definitions

* `ownedPasses`, `commandPasses` — where each command belongs

## Main Results

* `Replay.foldlM_step_follows` — a replay on a more lenient session
* `validate_eq_record`
-/

namespace Sgfx

open Fallible

/-! ## Passes -/

inductive PassKind where
  | render
  | compute
deriving DecidableEq

/-- Where the commands of a recording belong. -/
def ownedPasses : Grammar OwnedCommand PassKind where
  outside
    | .writeTextureLayer .. | .writeTextureMip .. | .blitTexture .. | .blitTextureRegion ..
    | .writeBuffer .. | .writeTexture .. | .copyBufferToBuffer .. | .copyTextureToTexture ..
    | .resourceBarrier _ => true
    | _ => false
  opens
    | .beginRenderPass _ | .beginRenderPassWithAttachments .. => some .render
    | .beginComputePass => some .compute
    | _ => none
  inside
    | .render, c => match c with
      | .setPipeline _ | .setProgrammablePipeline _ | .setBindGroup .. | .setVertexBuffer ..
      | .setVertexBufferSlot .. | .setIndexBuffer .. | .setTexture _ | .setSampler _
      | .setUniforms _ | .setDrawIndex _ | .setScissor _ | .setViewport _ | .setPushConstants ..
      | .draw .. | .drawInstanced .. | .drawIndexedInstanced .. | .drawIndexed .. => true
      | _ => false
    | .compute, c => match c with
      | .setComputePipeline _ | .setBindGroup .. | .setPushConstants .. | .dispatch .. => true
      | _ => false
  closes
    | .endRenderPass => some .render
    | .endComputePass => some .compute
    | _ => none

/-- Where the commands of a command buffer belong. -/
def commandPasses : Grammar Command PassKind where
  outside := Command.transfers
  opens
    | .beginRenderPass _ => some .render
    | .beginComputePass => some .compute
    | _ => none
  inside
    | .render, c => match c with
      | .setPipeline _ | .setProgrammablePipeline _ | .setBindGroup .. | .setVertexBuffer ..
      | .setVertexBufferSlot .. | .setIndexBuffer .. | .setTexture _ | .setSampler _
      | .setUniforms _ | .setDrawIndex _ | .setScissor _ | .setViewport _ | .setPushConstants ..
      | .draw .. | .drawInstanced .. | .drawIndexedInstanced .. | .drawIndexed .. => true
      | _ => false
    | .compute, c => match c with
      | .setComputePipeline _ | .setBindGroup .. | .setPushConstants .. | .dispatch .. => true
      | _ => false
  closes
    | .endRenderPass => some .render
    | .endComputePass => some .compute
    | _ => none

theorem RenderCall.command_inside (c : RenderCall) :
    commandPasses.inside .render c.command.normalise = true := by
  cases c with
  | setVertexBufferSlot | drawInstanced | drawIndexedInstanced =>
    rw [RenderCall.command, Command.normalise]
    split <;> rfl
  | _ => rfl

theorem ComputeCall.command_inside (c : ComputeCall) :
    commandPasses.inside .compute c.command = true := by
  cases c <;> rfl

namespace Replay

variable {T : ResourceTable} {alloc : Allocator} {strict : Prop} {s s' : Session}
  {c : OwnedCommand} {call : Call}

/-! ## The calls of a command -/

theorem writeTexture_ok {texture : TextureId} {mipLevel arrayLayer : UInt32}
    {destination : PixelRect} {bytesPerRow : UInt32} {data : Payload} :
    writeTexture T texture mipLevel arrayLayer destination bytesPerRow data = .ok call ↔
      T.textureRef texture = .ok texture ∧ ∃ write,
        TextureWrite.new destination bytesPerRow data.slice mipLevel arrayLayer = .ok write ∧
          call = .encoder (.writeTexture texture write) := by
  unfold writeTexture
  rw [except_bind_eq_ok]
  constructor
  · rintro ⟨reference, href, h⟩
    obtain rfl := (ResourceTable.ref_eq_ok.mp href).1
    obtain ⟨write, hwrite, hcall⟩ := except_bind_eq_ok.mp h
    exact ⟨href, write, hwrite, (Except.ok.inj hcall).symm⟩
  · rintro ⟨href, write, hwrite, rfl⟩
    exact ⟨texture, href, except_bind_eq_ok.mpr ⟨write, hwrite, rfl⟩⟩

/-- Outside passes a command transfers or begins a pass. -/
theorem outside_ok (h : outside T c = .ok call) :
    (ownedPasses.outside c = true ∧ ∃ inner, call = .encoder inner) ∨
      (ownedPasses.opens c = some .render ∧ ∃ desc, call = .beginRenderPass desc) ∨
      (ownedPasses.opens c = some .compute ∧ call = .beginComputePass) := by
  cases c with
  | writeTextureLayer | writeTextureMip | writeTexture =>
    obtain ⟨-, write, -, rfl⟩ := writeTexture_ok.mp h
    exact .inl ⟨rfl, _, rfl⟩
  | blitTexture | blitTextureRegion | copyBufferToBuffer | copyTextureToTexture =>
    obtain ⟨source, -, h⟩ := except_bind_eq_ok.mp h
    obtain ⟨destination, -, h⟩ := except_bind_eq_ok.mp h
    cases h
    exact .inl ⟨rfl, _, rfl⟩
  | writeBuffer | resourceBarrier =>
    obtain ⟨resolved, -, h⟩ := except_bind_eq_ok.mp h
    cases h
    exact .inl ⟨rfl, _, rfl⟩
  | beginRenderPass | beginRenderPassWithAttachments =>
    obtain ⟨desc, -, h⟩ := except_bind_eq_ok.mp h
    cases h
    exact .inr (.inl ⟨rfl, desc, rfl⟩)
  | beginComputePass =>
    cases h
    exact .inr (.inr ⟨rfl, rfl⟩)
  | _ => cases h

/-- In a render pass a command sets state, draws or ends the pass. -/
theorem inRenderPass_ok (h : inRenderPass T c = .ok call) :
    (ownedPasses.closes c = some .render ∧ call = .endPass) ∨
      (ownedPasses.inside .render c = true ∧ ∃ inner, call = .render inner) := by
  cases c with
  | endRenderPass =>
    cases h
    exact .inl ⟨rfl, rfl⟩
  | setPipeline | setProgrammablePipeline | setBindGroup | setVertexBuffer | setVertexBufferSlot
  | setIndexBuffer | setTexture | setSampler =>
    obtain ⟨reference, -, h⟩ := except_bind_eq_ok.mp h
    cases h
    exact .inr ⟨rfl, _, rfl⟩
  | setUniforms | setDrawIndex | setScissor | setViewport | setPushConstants | draw
  | drawInstanced | drawIndexedInstanced | drawIndexed =>
    cases h
    exact .inr ⟨rfl, _, rfl⟩
  | _ => cases h

/-- In a compute pass a command sets state, dispatches or ends the pass. -/
theorem inComputePass_ok (h : inComputePass T c = .ok call) :
    (ownedPasses.closes c = some .compute ∧ call = .endPass) ∨
      (ownedPasses.inside .compute c = true ∧ ∃ inner, call = .compute inner) := by
  cases c with
  | endComputePass =>
    cases h
    exact .inl ⟨rfl, rfl⟩
  | setComputePipeline | setBindGroup =>
    obtain ⟨reference, -, h⟩ := except_bind_eq_ok.mp h
    cases h
    exact .inr ⟨rfl, _, rfl⟩
  | dispatch | setPushConstants =>
    cases h
    exact .inr ⟨rfl, _, rfl⟩
  | _ => cases h

/-! ## Lenient replays -/

theorem resolve_lenient (h : s.Lenient strict s') : resolve T s' = resolve T s := by
  cases h <;> rfl

theorem step_eq_ok {s₁ : Session} :
    step T alloc s c = .ok s₁ ↔
      ∃ call, resolve T s c = .ok call ∧ s.call T alloc call = (.ok (), s₁) := by
  unfold step
  rw [except_bind_eq_ok]
  constructor
  · rintro ⟨call, hcall, h⟩
    obtain ⟨⟨⟩, hok, hstate⟩ := except_bind_eq_ok.mp h
    exact ⟨call, hcall, Prod.ext hok (Except.ok.inj hstate)⟩
  · rintro ⟨call, hcall, hrun⟩
    refine ⟨call, hcall, except_bind_eq_ok.mpr ⟨(), congrArg Prod.fst hrun, ?_⟩⟩
    rw [hrun]
    rfl

/-- A command that is accepted is accepted by a more lenient session. -/
theorem step_ok_lenient {s₁ : Session} (h : s.Lenient strict s')
    (hstep : step T grantAll s c = .ok s₁) :
    ∃ s₁', step T grantAll s' c = .ok s₁' ∧ s₁.Lenient strict s₁' := by
  obtain ⟨call, hcall, hrun⟩ := step_eq_ok.mp hstep
  obtain ⟨⟨⟩, s₁', hrun', h'⟩ := (h.call T call).of_eq_ok hrun
  exact ⟨s₁', step_eq_ok.mpr ⟨call, by rw [resolve_lenient h, hcall], hrun'⟩, h'⟩

/-- A command that is refused is refused by a session that is as strict, with the same error. -/
theorem step_error_strict {error : Error} (h : s.Lenient strict s') (hstrict : strict)
    (hstep : step T grantAll s c = .error error) : step T grantAll s' c = .error error := by
  unfold step at hstep ⊢
  rw [resolve_lenient h]
  rcases except_bind_eq_error.mp hstep with hcall | ⟨call, hcall, hrest⟩
  · exact except_bind_eq_error.mpr (.inl hcall)
  · refine except_bind_eq_error.mpr (.inr ⟨call, hcall, ?_⟩)
    rcases except_bind_eq_error.mp hrest with hrun | ⟨_, -, hpure⟩
    · exact except_bind_eq_error.mpr (.inl ((h.call T call).of_eq_error hstrict (Prod.ext hrun rfl)))
    · cases hpure

/-- A replay that succeeds succeeds on a more lenient session. -/
theorem foldlM_step_lenient {commands : List OwnedCommand} {s₁ : Session} (h : s.Lenient strict s')
    (hfold : commands.foldlM (step T grantAll) s = .ok s₁) :
    ∃ s₁', commands.foldlM (step T grantAll) s' = .ok s₁' ∧ s₁.Lenient strict s₁' := by
  induction commands generalizing s s' with
  | nil =>
    cases hfold
    exact ⟨s', rfl, h⟩
  | cons c rest ih =>
    rw [List.foldlM_cons] at hfold
    obtain ⟨mid, hstep, hrest⟩ := except_bind_eq_ok.mp hfold
    obtain ⟨mid', hstep', h'⟩ := step_ok_lenient h hstep
    obtain ⟨s₁', hrest', h''⟩ := ih h' hrest
    rw [List.foldlM_cons]
    exact ⟨s₁', except_bind_eq_ok.mpr ⟨mid', hstep', hrest'⟩, h''⟩

theorem foldlM_step_strict {commands : List OwnedCommand} {error : Error} (h : s.Lenient strict s')
    (hstrict : strict) (hfold : commands.foldlM (step T grantAll) s = .error error) :
    commands.foldlM (step T grantAll) s' = .error error := by
  induction commands generalizing s s' with
  | nil => cases hfold
  | cons c rest ih =>
    rw [List.foldlM_cons] at hfold ⊢
    rcases except_bind_eq_error.mp hfold with hstep | ⟨mid, hstep, hrest⟩
    · exact except_bind_eq_error.mpr (.inl (step_error_strict h hstrict hstep))
    · obtain ⟨mid', hstep', h'⟩ := step_ok_lenient h hstep
      exact except_bind_eq_error.mpr (.inr ⟨mid', hstep', ih h' hrest⟩)

theorem finish_idle (e : CommandEncoder) :
    finish (.idle e) = if e.passOpen then .error .renderPassStillActive else .ok e := rfl

theorem finish_lenient (h : s.Lenient strict s') :
    (∀ e, finish s = .ok e → ∃ e', finish s' = .ok e') ∧
      ∀ error, finish s = .error error → finish s' = .error error := by
  cases h with
  | @idle e e' h =>
    rw [finish_idle, finish_idle, h.passOpen]
    split
    · exact ⟨fun _ he => (by cases he), fun _ herror => herror⟩
    · exact ⟨fun _ _ => ⟨e', rfl⟩, fun _ herror => (by cases herror)⟩
  | render | compute => exact ⟨fun _ he => (by cases he), fun _ herror => herror⟩

/-! ## Where a replay is -/

/-- The commands that were replayed and those that were recorded end at this point. -/
def At (done : List OwnedCommand) : Session → Prop
  | .idle e => ownedPasses.Nested done ∧ commandPasses.Nested e.commands
  | .render p => ownedPasses.Within .render done ∧ commandPasses.Within .render p.encoder.commands
  | .compute p =>
    ownedPasses.Within .compute done ∧ commandPasses.Within .compute p.encoder.commands

/-- A replay that keeps its commands, at some point of it. -/
structure Tracks (done : List OwnedCommand) (s : Session) : Prop where
  keeps : s.encoder.validationOnly = false
  shows : ∃ b, s.Shows b
  position : At done s

/-- A recorded command is kept. -/
theorem records_commands {e e' : CommandEncoder} {b : Bindings} {command : Command}
    (h : e.Records T b command e') (keeps : e.validationOnly = false) :
    e'.commands = e.commands ++ [command] ∧ e'.validationOnly = false := by
  have hfields := CommandEncoder.recorded_fields e T b command
  rw [← h.result, keeps] at hfields
  exact hfields

theorem Tracks.outside {done : List OwnedCommand} {e : CommandEncoder} {s₁ : Session}
    (h : Tracks done (.idle e)) (hcall : outside T c = .ok call)
    (hrun : (Session.idle e).call T alloc call = (.ok (), s₁)) : Tracks (done ++ [c]) s₁ := by
  obtain ⟨keeps, -, hdone, hcommands⟩ := h
  rcases outside_ok hcall with ⟨alone, inner, rfl⟩ | ⟨opens, desc, rfl⟩ | ⟨opens, rfl⟩
  · rcases hinner : inner.run T alloc e with ⟨error | ⟨⟩, e'⟩
    · rw [Session.call, hinner] at hrun
      cases hrun
    · rw [Session.call, hinner] at hrun
      cases hrun
      obtain ⟨command, asks, records⟩ := EncoderCall.run_ok (b := .initial) hinner
      obtain ⟨hkept, hkeeps⟩ := records_commands records keeps
      refine ⟨hkeeps, ⟨.initial, trivial⟩, hdone.snoc alone, ?_⟩
      rw [hkept]
      exact hcommands.snoc (Command.transfers_of_asks asks)
  · rcases hinner : CommandEncoder.beginRenderPass T alloc desc e with ⟨error | p, e'⟩
    · rw [Session.call, hinner] at hrun
      cases hrun
    · rw [Session.call, hinner] at hrun
      cases hrun
      obtain ⟨records, shows, -⟩ := CommandEncoder.beginRenderPass_ok (b := .initial) hinner
      obtain ⟨hkept, hkeeps⟩ := records_commands records keeps
      refine ⟨hkeeps, ⟨_, shows⟩, hdone.open opens, ?_⟩
      rw [hkept]
      exact hcommands.open rfl
  · rcases hinner : CommandEncoder.beginComputePass alloc e with ⟨error | p, e'⟩
    · rw [Session.call, hinner] at hrun
      cases hrun
    · rw [Session.call, hinner] at hrun
      cases hrun
      obtain ⟨records, shows⟩ := CommandEncoder.beginComputePass_ok (T := T) (b := .initial) hinner
      obtain ⟨hkept, hkeeps⟩ := records_commands records keeps
      refine ⟨hkeeps, ⟨_, shows⟩, hdone.open opens, ?_⟩
      rw [hkept]
      exact hcommands.open rfl

/-- The end of a pass. -/
theorem Tracks.finishPass {done : List OwnedCommand} {e : CommandEncoder} {s₁ : Session}
    {k : PassKind} {command : Command} (keeps : e.validationOnly = false)
    (hdone : ownedPasses.Within k done) (hcommands : commandPasses.Within k e.commands)
    (closes : ownedPasses.closes c = some k) (hcommand : commandPasses.closes command = some k)
    (hrun : Session.finishPass alloc command e = (.ok (), s₁)) : Tracks (done ++ [c]) s₁ := by
  rcases hend : CommandEncoder.pushPassEnd alloc command e with ⟨error | ⟨⟩, e'⟩
  · rw [Session.finishPass, hend] at hrun
    cases hrun
  · rw [Session.finishPass, hend] at hrun
    cases hrun
    have hends : CommandEncoder.endsPass command = true := by
      cases command with
      | endRenderPass | endComputePass => rfl
      | _ => cases hcommand
    have records := CommandEncoder.pushPassEnd_ok (T := ResourceTable.new 1 (by decide)) (b := .initial) hends hend
    obtain ⟨hkept, hkeeps⟩ := records_commands records keeps
    refine ⟨hkeeps, ⟨.initial, trivial⟩, hdone.close closes, ?_⟩
    show commandPasses.Nested e'.commands
    rw [show e'.commands = e.commands ++ [command] from hkept]
    exact hcommands.close hcommand

theorem Tracks.inRenderPass {done : List OwnedCommand} {p : RenderPassEncoder} {s₁ : Session}
    (h : Tracks done (.render p)) (hcall : inRenderPass T c = .ok call)
    (hrun : (Session.render p).call T alloc call = (.ok (), s₁)) : Tracks (done ++ [c]) s₁ := by
  obtain ⟨keeps, ⟨b, shows⟩, hdone, hcommands⟩ := h
  rcases inRenderPass_ok hcall with ⟨closes, rfl⟩ | ⟨inside, inner, rfl⟩
  · exact .finishPass keeps hdone hcommands closes rfl hrun
  · rcases hinner : inner.run T alloc p with ⟨error | ⟨⟩, p'⟩
    · rw [Session.call, hinner] at hrun
      cases hrun
    · rw [Session.call, hinner] at hrun
      cases hrun
      rcases RenderCall.run_ok shows hinner with ⟨rfl, -⟩ | records
      · exact ⟨keeps, ⟨b, shows⟩, hdone.snoc inside, hcommands⟩
      · obtain ⟨hkept, hkeeps⟩ := records_commands records.encoder keeps
        refine ⟨hkeeps, ⟨_, records.shows⟩, hdone.snoc inside, ?_⟩
        rw [hkept]
        exact hcommands.snoc inner.command_inside

theorem Tracks.inComputePass {done : List OwnedCommand} {p : ComputePassEncoder} {s₁ : Session}
    (h : Tracks done (.compute p)) (hcall : inComputePass T c = .ok call)
    (hrun : (Session.compute p).call T alloc call = (.ok (), s₁)) : Tracks (done ++ [c]) s₁ := by
  obtain ⟨keeps, ⟨b, shows⟩, hdone, hcommands⟩ := h
  rcases inComputePass_ok hcall with ⟨closes, rfl⟩ | ⟨inside, inner, rfl⟩
  · exact .finishPass keeps hdone hcommands closes rfl hrun
  · rcases hinner : inner.run T alloc p with ⟨error | ⟨⟩, p'⟩
    · rw [Session.call, hinner] at hrun
      cases hrun
    · rw [Session.call, hinner] at hrun
      cases hrun
      rcases ComputeCall.run_ok shows hinner with ⟨rfl, -⟩ | records
      · exact ⟨keeps, ⟨b, shows⟩, hdone.snoc inside, hcommands⟩
      · obtain ⟨hkept, hkeeps⟩ := records_commands records.encoder keeps
        refine ⟨hkeeps, ⟨_, records.shows⟩, hdone.snoc inside, ?_⟩
        rw [hkept]
        exact hcommands.snoc inner.command_inside

theorem Tracks.step {done : List OwnedCommand} {s₁ : Session} (h : Tracks done s)
    (hstep : step T alloc s c = .ok s₁) : Tracks (done ++ [c]) s₁ := by
  obtain ⟨call, hcall, hrun⟩ := step_eq_ok.mp hstep
  cases s with
  | idle e => exact h.outside hcall hrun
  | render p => exact h.inRenderPass hcall hrun
  | compute p => exact h.inComputePass hcall hrun

theorem Tracks.foldlM {commands : List OwnedCommand} {s₁ : Session} (h : Tracks [] s)
    (hfold : commands.foldlM (Replay.step T alloc) s = .ok s₁) : Tracks commands s₁ :=
  foldlM_ok Tracks h (fun _ _ _ _ htracks hstep => htracks.step hstep) hfold

theorem new_tracks : Tracks [] (.idle .new) := ⟨rfl, ⟨.initial, trivial⟩, .nil, .nil⟩

/-- A recording that is accepted ends outside passes. -/
theorem finish_tracks {commands : List OwnedCommand} {e : CommandEncoder}
    (h : Tracks commands s) (hfinish : finish s = .ok e) :
    ownedPasses.Nested commands ∧ commandPasses.Nested e.commands := by
  cases s with
  | idle e' =>
    rw [finish_idle] at hfinish
    split at hfinish
    · cases hfinish
    · cases hfinish
      exact h.position
  | render | compute => cases hfinish

/-! ## Inside and outside passes -/

/-- Every call outside passes checks that no pass is open. -/
theorem run_closed {inner : EncoderCall} {e e' : CommandEncoder} {u : Unit}
    (h : inner.run T alloc e = (.ok u, e')) : e.passOpen = false := by
  have hclosed : ∀ {β : Type} {f : Unit → Fallible CommandEncoder Error β} {b : β},
      ((liftM e.ensureOutsidePass : Fallible CommandEncoder Error Unit) >>= f) e = (.ok b, e') →
        e.passOpen = false := by
    intro β f b hrun
    obtain ⟨_, hcheck, -⟩ := lift_bind_eq_ok.mp hrun
    rwa [CommandEncoder.ensureOutsidePass, failIf_eq_ok, Bool.not_eq_true] at hcheck
  cases inner with
  | blitTexture =>
    simp only [EncoderCall.run, CommandEncoder.blitTexture, lift_bind_eq_ok] at h
    obtain ⟨_, _, _, _, _, _, _, _, _, _, _, _, h⟩ := h
    exact hclosed h
  | _ => exact hclosed h

/-- A command that is accepted outside passes finds none open. -/
theorem closed_of_step {e : CommandEncoder} {s₁ : Session}
    (h : step T alloc (.idle e) c = .ok s₁) : e.passOpen = false := by
  obtain ⟨call, hcall, hrun⟩ := step_eq_ok.mp h
  have hclosed : e.ensureOutsidePass = .ok () → e.passOpen = false := by
    intro hcheck
    rwa [CommandEncoder.ensureOutsidePass, failIf_eq_ok, Bool.not_eq_true] at hcheck
  rcases outside_ok hcall with ⟨-, inner, rfl⟩ | ⟨-, desc, rfl⟩ | ⟨-, rfl⟩
  · rcases hinner : inner.run T alloc e with ⟨error | u, e'⟩
    · rw [Session.call, hinner] at hrun
      cases hrun
    · exact run_closed hinner
  · rcases hinner : CommandEncoder.beginRenderPass T alloc desc e with ⟨error | p, e'⟩
    · rw [Session.call, hinner] at hrun
      cases hrun
    · rw [CommandEncoder.beginRenderPass, read_bind_run] at hinner
      obtain ⟨_, hcheck, -⟩ := lift_bind_eq_ok.mp hinner
      exact hclosed hcheck
  · rcases hinner : CommandEncoder.beginComputePass alloc e with ⟨error | p, e'⟩
    · rw [Session.call, hinner] at hrun
      cases hrun
    · rw [CommandEncoder.beginComputePass, read_bind_run] at hinner
      obtain ⟨_, hcheck, -⟩ := lift_bind_eq_ok.mp hinner
      exact hclosed hcheck

/-- No pass encoder is held. -/
def idle : Session → Bool
  | .idle _ => true
  | .render _ | .compute _ => false

/-- What a command that is accepted is, and where it leads. -/
inductive Moves (c : OwnedCommand) (s s₁ : Session) : Prop
  | transfers (outside : ownedPasses.outside c = true) (before : idle s = true)
      (after : idle s₁ = true)
  | opens (opens : (ownedPasses.opens c).isSome = true) (before : idle s = true)
      (after : idle s₁ = false)
  | inside {k : PassKind} (inside : ownedPasses.inside k c = true) (before : idle s = false)
      (after : idle s₁ = false)
  | closes (closes : (ownedPasses.closes c).isSome = true) (before : idle s = false)
      (after : idle s₁ = true)

theorem finishPass_idle {command : Command} {e : CommandEncoder} {s₁ : Session}
    (h : Session.finishPass alloc command e = (.ok (), s₁)) : idle s₁ = true := by
  unfold Session.finishPass at h
  split at h
  · cases h
    rfl
  · cases h

theorem step_moves {s₁ : Session} (h : step T alloc s c = .ok s₁) : Moves c s s₁ := by
  obtain ⟨call, hcall, hrun⟩ := step_eq_ok.mp h
  cases s with
  | idle e =>
    rcases outside_ok hcall with ⟨alone, inner, rfl⟩ | ⟨opens, desc, rfl⟩ | ⟨opens, rfl⟩
    · obtain rfl := (Prod.mk.inj hrun).2
      exact .transfers alone rfl rfl
    · rcases hinner : CommandEncoder.beginRenderPass T alloc desc e with ⟨error | p, e'⟩
      · rw [Session.call, hinner] at hrun
        cases hrun
      · rw [Session.call, hinner] at hrun
        cases hrun
        exact .opens (Option.isSome_of_eq_some opens) rfl rfl
    · rcases hinner : CommandEncoder.beginComputePass alloc e with ⟨error | p, e'⟩
      · rw [Session.call, hinner] at hrun
        cases hrun
      · rw [Session.call, hinner] at hrun
        cases hrun
        exact .opens (Option.isSome_of_eq_some opens) rfl rfl
  | render p =>
    rcases inRenderPass_ok hcall with ⟨closes, rfl⟩ | ⟨inside, inner, rfl⟩
    · exact .closes (Option.isSome_of_eq_some closes) rfl (finishPass_idle hrun)
    · obtain rfl := (Prod.mk.inj hrun).2
      exact .inside inside rfl rfl
  | compute p =>
    rcases inComputePass_ok hcall with ⟨closes, rfl⟩ | ⟨inside, inner, rfl⟩
    · exact .closes (Option.isSome_of_eq_some closes) rfl (finishPass_idle hrun)
    · obtain rfl := (Prod.mk.inj hrun).2
      exact .inside inside rfl rfl

/-! ## Validation and recording -/

theorem new_lenient : (Session.idle .new).Lenient True (.idle .forValidation) :=
  .idle ⟨rfl, Nat.le_refl 0, List.Subset.refl [], List.Subset.refl [], fun _ => ⟨rfl, rfl, rfl⟩⟩

end Replay

/-- Validation answers what recording answers.  A recording that is accepted, and what it records,
consist of transfers and barriers outside passes and of complete passes of state and draws. -/
theorem validate_eq_record (T : ResourceTable) (commands : List OwnedCommand) :
    validate T grantAll commands = (record T grantAll commands).map (fun _ => ()) ∧
      ∀ recorded, record T grantAll commands = .ok recorded →
        ownedPasses.Nested commands ∧ commandPasses.Nested recorded := by
  constructor
  · rw [validate, record, Replay.recordWith, Replay.recordWith]
    match hfold : commands.foldlM (Replay.step T grantAll) (.idle .new) with
    | .error error =>
      rw [Replay.foldlM_step_strict Replay.new_lenient trivial hfold]
    | .ok s =>
      obtain ⟨s', hfold', h⟩ := Replay.foldlM_step_lenient Replay.new_lenient hfold
      obtain ⟨hok, herror⟩ := Replay.finish_lenient h
      rw [hfold']
      show ((Replay.finish s').bind fun e => .ok e.commands).map _ =
        ((Replay.finish s).bind fun e => .ok e.commands).map _
      match hfinish : Replay.finish s with
      | .error error =>
        rw [herror error hfinish]
      | .ok e =>
        obtain ⟨e', hfinish'⟩ := hok e hfinish
        rw [hfinish']
        rfl
  · intro recorded h
    obtain ⟨s, hfold, h⟩ := except_bind_eq_ok.mp h
    obtain ⟨e, hfinish, hcommands⟩ := except_bind_eq_ok.mp h
    cases hcommands
    exact Replay.finish_tracks (Replay.new_tracks.foldlM hfold) hfinish

end Sgfx
