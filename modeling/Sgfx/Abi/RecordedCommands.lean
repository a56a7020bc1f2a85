import Sgfx.Abi.CommandReferences
import Sgfx.Runs

/-!
# Recorded commands and their references

Every recorded command refers to things that its table had when it was recorded, and its uploads
are not empty.  The references may be released later, and the descriptor of a pass may have been
built before some of its textures were; it is remembered with the textures it was built for.

## Main Definitions

* `Command.Refers` — what an accepted call has checked
* `World.Recalls` — what every run keeps

## Main Results

* `Session.refers` — accepted calls
* `World.run_recalls`
-/

namespace Sgfx

open Fallible

/-- The command refers to what the table has, and uploads something. -/
structure Command.Refers (T : ResourceTable) (c : Command) : Prop where
  live : ∀ r ∈ c.references, r.Live T
  data : ∀ s ∈ c.slices, s.len ≠ 0

namespace Command

variable {T : ResourceTable}

theorem Refers.of_none {c : Command} (references : c.references = []) (slices : c.slices = []) :
    c.Refers T where
  live r inside := by
    rw [references] at inside
    cases inside
  data s inside := by
    rw [slices] at inside
    cases inside

theorem Refers.one {c : Command} {r : Reference} (references : c.references = [r])
    (slices : c.slices = []) (live : r.Live T) : c.Refers T where
  live r' inside := by
    rw [references, List.mem_singleton] at inside
    exact inside ▸ live
  data s inside := by
    rw [slices] at inside
    cases inside

theorem Refers.two {c : Command} {r r' : Reference} (references : c.references = [r, r'])
    (slices : c.slices = []) (live : r.Live T) (live' : r'.Live T) : c.Refers T where
  live r'' inside := by
    rw [references, List.mem_cons, List.mem_singleton] at inside
    rcases inside with rfl | rfl
    · exact live
    · exact live'
  data s inside := by
    rw [slices] at inside
    cases inside

theorem references_normalise (c : Command) : c.normalise.references = c.references := by
  cases c <;> simp only [normalise] <;> split <;> rfl

theorem slices_normalise (c : Command) : c.normalise.slices = c.slices := by
  cases c <;> simp only [normalise] <;> split <;> rfl

theorem Refers.normalise {c : Command} (h : c.Refers T) : c.normalise.Refers T where
  live := by
    rw [references_normalise]
    exact h.live
  data := by
    rw [slices_normalise]
    exact h.data

end Command

/-! ## Accepted calls -/

section Calls

variable {T : ResourceTable} {alloc : Allocator} {u : Unit} {command : Command}

/-- A row of pixels is not empty. -/
theorem checkedMul32_ne_zero {a b c : UInt32} (ha : a ≠ 0) (hb : b ≠ 0)
    (h : checkedMul32 a b = some c) : c ≠ 0 := by
  have ha' : a.toNat ≠ 0 := fun zero => ha (UInt32.toNat_inj.mp zero)
  have hb' : b.toNat ≠ 0 := fun zero => hb (UInt32.toNat_inj.mp zero)
  unfold checkedMul32 at h
  split at h
  · rename_i fits
    cases h
    intro zero
    have product : (a * b).toNat = a.toNat * b.toNat := by
      rw [UInt32.toNat_mul]
      exact Nat.mod_eq_of_lt fits
    rw [zero] at product
    exact Nat.mul_ne_zero ha' hb' product.symm
  · cases h

theorem requiredUpload_ne_zero {write : TextureWrite} {format : TextureFormat} {size : UInt64}
    (h : CommandEncoder.requiredUpload write format = .ok size) : size ≠ 0 := by
  simp only [CommandEncoder.requiredUpload, except_bind_eq_ok, okOr_eq_ok, Option.bind_eq_some_iff]
    at h
  obtain ⟨pixel, hpixel, tight, htight, -, -, rows, -, hsize⟩ := h
  have pixel_ne : pixel ≠ 0 := by
    cases format <;> cases hpixel <;> decide
  have tight_ne := checkedMul32_ne_zero write.destination.valid.1 pixel_ne htight
  have tight_ne' : tight.toNat ≠ 0 := fun zero => tight_ne (UInt32.toNat_inj.mp zero)
  have sum := checkedAdd64_toNat hsize
  rw [UInt32.toNat_toUInt64] at sum
  rintro rfl
  rw [UInt64.toNat_zero] at sum
  omega

/-- A call of the command encoder that is accepted. -/
theorem EncoderCall.refers {e e' : CommandEncoder} {call : EncoderCall}
    (h : call.run T alloc e = (.ok u, e')) (asks : call.Asks command) : command.Refers T := by
  cases call with
  | writeBuffer buffer offset data =>
    subst asks
    simp only [run, CommandEncoder.writeBuffer, read_bind_run, lift_bind_eq_ok, failIf_eq_ok] at h
    obtain ⟨-, -, desc, found, -, -, -, some, -⟩ := h
    refine ⟨fun r inside => ?_, fun s inside => ?_⟩
    · rw [List.mem_singleton.mp inside]
      exact ⟨desc, found⟩
    · rw [List.mem_singleton.mp inside]
      exact some
  | writeTexture texture write =>
    subst asks
    simp only [run, CommandEncoder.writeTexture, read_bind_run, lift_bind_eq_ok, failIf_eq_ok] at h
    obtain ⟨-, -, desc, found, -, -, -, -, -, -, -, -, required, hrequired, -, enough, -⟩ := h
    refine ⟨fun r inside => ?_, fun s inside => ?_⟩
    · rw [List.mem_singleton.mp inside]
      exact ⟨desc, found⟩
    · rw [List.mem_singleton.mp inside]
      intro empty
      have required_ne := requiredUpload_ne_zero hrequired
      rw [empty, UInt64.not_lt] at enough
      exact required_ne (UInt64.le_antisymm enough UInt64.zero_le)
  | blitTexture source sourceMip destination destinationMip filter =>
    obtain ⟨sourceRect, destinationRect, rfl⟩ := asks
    simp only [run, CommandEncoder.blitTexture, lift_bind_eq_ok] at h
    obtain ⟨desc, found, -, -, desc', found', -⟩ := h
    exact .two rfl rfl ⟨desc, found⟩ ⟨desc', found'⟩
  | blitTextureRegion source sourceMip sourceRect destination destinationMip destinationRect filter =>
    subst asks
    simp only [run, CommandEncoder.blitTextureRegion, CommandEncoder.blitTextureRegionFlipped,
      read_bind_run, lift_bind_eq_ok] at h
    obtain ⟨-, -, desc, found, desc', found', -⟩ := h
    exact .two rfl rfl ⟨desc, found⟩ ⟨desc', found'⟩
  | blitTextureRegionFlipped source sourceMip sourceRect destination destinationMip destinationRect
      filter flips =>
    subst asks
    simp only [run, CommandEncoder.blitTextureRegionFlipped, read_bind_run, lift_bind_eq_ok] at h
    obtain ⟨-, -, desc, found, desc', found', -⟩ := h
    exact .two rfl rfl ⟨desc, found⟩ ⟨desc', found'⟩
  | copyTextureToTexture source sourceRect destination destinationRect =>
    subst asks
    simp only [run, CommandEncoder.copyTextureToTexture, read_bind_run, lift_bind_eq_ok] at h
    obtain ⟨-, -, desc, found, desc', found', -⟩ := h
    exact .two rfl rfl ⟨desc, found⟩ ⟨desc', found'⟩
  | copyBufferToBuffer source sourceOffset destination destinationOffset size =>
    subst asks
    simp only [run, CommandEncoder.copyBufferToBuffer, read_bind_run, lift_bind_eq_ok] at h
    obtain ⟨-, -, desc, found, desc', found', -⟩ := h
    exact .two rfl rfl ⟨desc, found⟩ ⟨desc', found'⟩
  | resourceBarrier barrier =>
    subst asks
    simp only [run, CommandEncoder.resourceBarrier, read_bind_run, lift_bind_eq_ok] at h
    obtain ⟨-, -, h⟩ := h
    cases barrier with
    | global => exact .of_none rfl rfl
    | buffer id before after =>
      simp only [reduceCtorEq, if_false, CommandEncoder.transitions, lift_bind_eq_ok,
        except_bind_eq_ok] at h
      obtain ⟨-, ⟨desc, found, -⟩, -⟩ := h
      exact .one rfl rfl ⟨desc, found⟩
    | texture id before after =>
      simp only [reduceCtorEq, if_false, CommandEncoder.transitions, lift_bind_eq_ok,
        except_bind_eq_ok] at h
      obtain ⟨-, ⟨desc, found, -⟩, -⟩ := h
      exact .one rfl rfl ⟨desc, found⟩
    | textureMip id mip before after =>
      simp only [reduceCtorEq, if_false, CommandEncoder.transitions,
        CommandEncoder.validateTextureTransition, lift_bind_eq_ok, except_bind_eq_ok] at h
      obtain ⟨-, ⟨-, ⟨desc, found, -⟩, -⟩, -⟩ := h
      exact .one rfl rfl ⟨desc, found⟩

theorem Command.Refers.upload {stages : ShaderStages} {offset : UInt32} {data : ByteSlice}
    {layout : PipelineLayoutDesc} (h : layout.validatePushConstants stages offset data = .ok ()) :
    (Command.setPushConstants stages offset data).Refers T := by
  simp only [PipelineLayoutDesc.validatePushConstants, except_bind_eq_ok, failIf_eq_ok, not_or] at h
  obtain ⟨-, ⟨-, some, -⟩, -⟩ := h
  refine ⟨fun r inside => (by cases inside), fun s inside => ?_⟩
  rw [List.mem_singleton.mp inside]
  exact some

/-- A call of a render pass that is accepted. -/
theorem RenderCall.refers {p p' : RenderPassEncoder} {call : RenderCall}
    (h : call.run T alloc p = (.ok u, p')) : call.command.Refers T := by
  cases call with
  | setPipeline id =>
    simp only [run, RenderPassEncoder.setPipeline, read_bind_run, lift_bind_eq_ok] at h
    obtain ⟨desc, found, -⟩ := h
    exact .one rfl rfl ⟨desc, found⟩
  | setVertexBuffer buffer offset =>
    simp only [run, RenderPassEncoder.setVertexBuffer, RenderPassEncoder.checkVertexBuffer,
      lift_bind_eq_ok, except_bind_eq_ok] at h
    obtain ⟨-, ⟨desc, found, -⟩, -⟩ := h
    exact .one rfl rfl ⟨desc, found⟩
  | setVertexBufferSlot slot buffer offset =>
    simp only [run, RenderPassEncoder.setVertexBufferSlot, lift_bind_eq_ok] at h
    obtain ⟨-, -, h⟩ := h
    have live : ∃ desc, T.buffer buffer = .ok desc := by
      split at h
      all_goals
        simp only [RenderPassEncoder.setVertexBuffer, RenderPassEncoder.checkVertexBuffer,
          lift_bind_eq_ok, except_bind_eq_ok] at h
        obtain ⟨-, ⟨desc, found, -⟩, -⟩ := h
        exact ⟨desc, found⟩
    exact .one rfl rfl live
  | setIndexBuffer buffer offset format =>
    simp only [run, RenderPassEncoder.setIndexBuffer, lift_bind_eq_ok] at h
    obtain ⟨desc, found, -⟩ := h
    exact .one rfl rfl ⟨desc, found⟩
  | setTexture id =>
    simp only [run, RenderPassEncoder.setTexture, read_bind_run, lift_bind_eq_ok] at h
    obtain ⟨desc, found, -⟩ := h
    exact .one rfl rfl ⟨desc, found⟩
  | setSampler id =>
    simp only [run, RenderPassEncoder.setSampler, lift_bind_eq_ok] at h
    obtain ⟨desc, found, -⟩ := h
    exact .one rfl rfl ⟨desc, found⟩
  | setPushConstants stages offset data =>
    simp only [run, RenderPassEncoder.setPushConstants, read_bind_run, lift_bind_eq_ok] at h
    obtain ⟨_, -, desc, -, _, valid, -⟩ := h
    exact .upload valid
  | setProgrammablePipeline id =>
    simp only [run, RenderPassEncoder.setProgrammablePipeline, read_bind_run, lift_bind_eq_ok] at h
    obtain ⟨desc, found, -⟩ := h
    exact .one rfl rfl ⟨desc, found⟩
  | setBindGroup index group =>
    simp only [run, RenderPassEncoder.setBindGroup, lift_bind_eq_ok] at h
    obtain ⟨-, -, desc, found, -⟩ := h
    exact .one rfl rfl ⟨desc, found⟩
  | setDrawIndex | setUniforms | setScissor | setViewport | draw | drawIndexed | drawInstanced
  | drawIndexedInstanced => exact .of_none rfl rfl

/-- A call of a compute pass that is accepted. -/
theorem ComputeCall.refers {p p' : ComputePassEncoder} {call : ComputeCall}
    (h : call.run T alloc p = (.ok u, p')) : call.command.Refers T := by
  cases call with
  | setPushConstants stages offset data =>
    simp only [run, ComputePassEncoder.setPushConstants, read_bind_run, lift_bind_eq_ok] at h
    obtain ⟨_, -, desc, -, _, valid, -⟩ := h
    exact .upload valid
  | setPipeline id =>
    simp only [run, ComputePassEncoder.setPipeline, lift_bind_eq_ok] at h
    obtain ⟨desc, found, -⟩ := h
    exact .one rfl rfl ⟨desc, found⟩
  | setBindGroup index group =>
    simp only [run, ComputePassEncoder.setBindGroup, lift_bind_eq_ok] at h
    obtain ⟨-, -, desc, found, -⟩ := h
    exact .one rfl rfl ⟨desc, found⟩
  | dispatch x y z => exact .of_none rfl rfl

/-- The pass of an accepted descriptor has its textures. -/
theorem beginRenderPass_refers {desc : RenderPassDesc} {e e' : CommandEncoder}
    {p : RenderPassEncoder} (h : CommandEncoder.beginRenderPass T alloc desc e = (.ok p, e')) :
    (Command.beginRenderPass desc).Refers T := by
  simp only [CommandEncoder.beginRenderPass, read_bind_run, lift_bind_eq_ok, forEach_eq_ok,
    CommandEncoder.checkTextureMipAccess_eq_ok] at h
  obtain ⟨-, -, targetDesc, -, -, -, -, -, depthDesc, -, -, colors, colorDescs, -, -, depth, -⟩ := h
  refine ⟨fun r inside => ?_, fun s inside => by cases inside⟩
  obtain ⟨id, member, rfl⟩ := List.mem_map.mp inside
  rcases List.mem_append.mp member with member | member
  · obtain ⟨a, here, rfl⟩ := List.mem_map.mp member
    obtain ⟨texture, found, -⟩ := (colors a here).1
    exact ⟨texture, found⟩
  · obtain ⟨a, here, rfl⟩ := List.mem_map.mp member
    obtain ⟨texture, found, -⟩ := (depth a here).1
    exact ⟨texture, found⟩

/-- A call of a session that is accepted. -/
theorem Session.refers {s : Session} {c : Call} (accepts : s.Accepts T alloc c)
    (asks : c.Asks command) : command.Refers T := by
  obtain ⟨fits, accepted⟩ := accepts
  cases c with
  | encoder c =>
    cases s with
    | idle e =>
      rcases hrun : c.run T alloc e with ⟨error | u, e'⟩
      · simp [call, hrun] at accepted
      · exact EncoderCall.refers hrun asks
    | render p | compute p => cases fits
  | beginRenderPass desc =>
    cases s with
    | idle e =>
      subst asks
      rcases hrun : CommandEncoder.beginRenderPass T alloc desc e with ⟨error | p, e'⟩
      · simp [call, hrun] at accepted
      · exact beginRenderPass_refers hrun
    | render p | compute p => cases fits
  | beginComputePass =>
    subst asks
    exact .of_none rfl rfl
  | render c =>
    cases s with
    | render p =>
      subst asks
      rcases hrun : c.run T alloc p with ⟨error | u, p'⟩
      · simp [call, hrun] at accepted
      · exact (RenderCall.refers hrun).normalise
    | idle e | compute p => cases fits
  | compute c =>
    cases s with
    | compute p =>
      subst asks
      rcases hrun : c.run T alloc p with ⟨error | u, p'⟩
      · simp [call, hrun] at accepted
      · exact ComputeCall.refers hrun
    | idle e | render p => cases fits
  | endPass =>
    rcases asks with rfl | rfl
    · exact .of_none rfl rfl
    · exact .of_none rfl rfl
  | dropPass => cases asks

end Calls

/-- Only one call begins a render pass. -/
theorem Call.eq_of_asks {c : Call} {d : RenderPassDesc} (asks : c.Asks (.beginRenderPass d)) :
    c = .beginRenderPass d := by
  cases c with
  | encoder c =>
    have transfers := Command.transfers_of_asks asks
    cases transfers
  | beginRenderPass desc =>
    cases asks
    rfl
  | beginComputePass => cases asks
  | render c =>
    have drawn : (Command.beginRenderPass d).drawKind.isSome = true ∨
        (Command.beginRenderPass d).setsState = true := by
      rw [show Command.beginRenderPass d = c.command.normalise from asks,
        Command.drawKind_normalise, Command.setsState_normalise]
      exact c.draws_or_sets
    rcases drawn with drawn | drawn <;> cases drawn
  | compute c => cases c <;> cases asks
  | endPass => rcases asks with asks | asks <;> cases asks
  | dropPass => cases asks

/-! ## Whole runs -/

namespace World

/-- The commands that were recorded. -/
def commands (w : World) : List Command := w.log.map Recorded.command

/-- What every run keeps: the encoder has the commands of the log, which name the table and upload
something; descriptors are remembered. -/
structure Recalls (w : World) : Prop where
  encoder : w.session.encoder.commands = w.commands
  passes : ∀ d ∈ w.passes, w.table.Remembers d
  begun : ∀ d, .beginRenderPass d ∈ w.commands → w.table.Remembers d
  named : ∀ c ∈ w.commands, ∀ r ∈ c.references, r.owner = w.table.id
  data : ∀ c ∈ w.commands, ∀ s ∈ c.slices, s.len ≠ 0

theorem new_recalls (id : UInt64) (id_ne : id ≠ 0) : (World.new id id_ne).Recalls where
  encoder := rfl
  passes d inside := by cases inside
  begun d inside := by cases inside
  named c inside := by cases inside
  data c inside := by cases inside

/-- Of a table that changes the descriptors are still remembered. -/
theorem Recalls.evolve {w : World} {T' : ResourceTable} (h : w.Recalls)
    (evolves : w.table.Evolves T') : { w with table := T' }.Recalls where
  encoder := h.encoder
  passes d inside := (h.passes d inside).mono evolves
  begun d inside := (h.begun d inside).mono evolves
  named c inside r here := (h.named c inside r here).trans evolves.id.symm
  data := h.data

theorem Recalls.advance {w w' : World} {event : Event} (h : w.Recalls) (tracks : w.Tracks)
    (advances : w.Advances event w') : w'.Recalls := by
  cases advances with
  | table evolves consistent groupsFit => exact h.evolve evolves
  | pass source built =>
    refine ⟨h.encoder, fun d inside => ?_, h.begun, h.named, h.data⟩
    rcases List.mem_append.mp inside with inside | last
    · exact h.passes d inside
    · rw [List.mem_singleton.mp last]
      exact PassBuilder.remembers (fun d here => h.passes d (source d here)) built
  | notBuilt | kept => exact h
  | dropped => exact ⟨h.encoder, h.passes, h.begun, h.named, h.data⟩
  | @recorded alloc c command s' accept records asks =>
    have refers := Session.refers accept.2 asks
    have last : ∀ {other : Command}, other ∈ w.commands ++ [command] →
        other ∈ w.commands ∨ other = command := by
      intro other inside
      exact (List.mem_append.mp inside).imp id List.mem_singleton.mp
    have commands : ({ w with session := s', log := w.log ++ [⟨w.table, command⟩] } : World).commands =
        w.commands ++ [command] := List.map_append
    refine ⟨?_, h.passes, ?_, ?_, ?_⟩ <;> rw [commands]
    · rw [records.encoder.result, (CommandEncoder.recorded_fields ..).1, tracks.keeps, h.encoder]
      rfl
    · intro d inside
      rcases last inside with inside | rfl
      · exact h.begun d inside
      · -- A pass is begun with a descriptor that the client holds.
        have held := accept.1
        rw [Call.eq_of_asks asks] at held
        exact h.passes d (List.contains_iff_mem.mp held)
    · intro other inside r here
      rcases last inside with inside | rfl
      · exact h.named other inside r here
      · exact (refers.live r here).owner_eq
    · intro other inside
      rcases last inside with inside | rfl
      · exact h.data other inside
      · exact refers.data

/-- Every run remembers its descriptors, and what its commands name. -/
theorem run_recalls (id : UInt64) (id_ne : id ≠ 0) (events : List Event) :
    ((World.new id id_ne).run events).Recalls :=
  run_invariant (new_recalls id id_ne) (fun _ _ _ tracks h advances => h.advance tracks advances)
    events

end World

end Sgfx
