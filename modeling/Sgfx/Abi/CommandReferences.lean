import Sgfx.Abi.PassRebuilding

/-!
# What a command refers to

The references of a command in the order in which they are resolved, and the command as another
table has it: with the identities of that table, and with its empty slices elsewhere.  A table
resolves a command exactly if it has everything that the command refers to, and its pass
descriptor fits.

## Main Definitions

* `Reference`, `Reference.Live`
* `Command.references`, `Command.imported`

## Main Results

* `resolve_eq_ok` — when a table resolves a command, and to what
-/

namespace Sgfx

/-- Something a command refers to. -/
inductive Reference where
  | resource (c : Category) (id : Id c)
  | sampler (id : SamplerId)
  | pipeline (id : RenderPipelineId)

namespace Reference

/-- The reference resolves. -/
def Live (T : ResourceTable) : Reference → Prop
  | resource _ id => ∃ d, T.get id = .ok d
  | sampler id => ∃ d, T.sampler id = .ok d
  | pipeline id => ∃ d, T.renderPipeline id = .ok d

/-- The table of the reference. -/
def owner : Reference → UInt64
  | resource _ id => id.owner
  | sampler id => id.owner
  | pipeline id => id.owner

/-- The reference in another table. -/
def retarget (owner : UInt64) : Reference → Reference
  | resource c id => resource c (id.retarget owner)
  | sampler id => sampler (id.retarget owner)
  | pipeline id => pipeline (id.retarget owner)

/-- What resolves belongs to the table. -/
theorem Live.owner_eq {T : ResourceTable} {r : Reference} (h : r.Live T) : r.owner = T.id := by
  cases r with
  | resource c id =>
    obtain ⟨d, found⟩ := h
    exact (ResourceTable.get_eq_ok.mp found).1
  | sampler id =>
    obtain ⟨d, found⟩ := h
    by_contra other
    have foreign : id.owner ≠ T.id := other
    rw [ResourceTable.sampler, if_pos foreign] at found
    cases found
  | pipeline id =>
    obtain ⟨d, found⟩ := h
    by_contra other
    have foreign : id.owner ≠ T.id := other
    rw [ResourceTable.renderPipeline, if_pos foreign] at found
    cases found

theorem retarget_self (r : Reference) : r.retarget r.owner = r := by
  cases r <;> rfl

end Reference

/-! ## References -/

def ResourceBarrier.references : ResourceBarrier → List Reference
  | .global => []
  | .buffer id _ _ => [.resource .buffer id]
  | .texture id _ _ => [.resource .texture id]
  | .textureMip id _ _ _ => [.resource .texture id]

def ResourceBarrier.retarget (owner : UInt64) : ResourceBarrier → ResourceBarrier
  | .global => .global
  | .buffer id before after => .buffer (id.retarget owner) before after
  | .texture id before after => .texture (id.retarget owner) before after
  | .textureMip id mip before after => .textureMip (id.retarget owner) mip before after

namespace Command

/-- What the command refers to. -/
def references : Command → List Reference
  | writeBuffer buffer _ _ => [.resource .buffer buffer]
  | writeTexture texture _ => [.resource .texture texture]
  | copyTextureToTexture source _ destination _ =>
    [.resource .texture source, .resource .texture destination]
  | beginRenderPass d => d.targets.map (.resource .texture)
  | setPipeline id => [.pipeline id]
  | setVertexBuffer buffer _ => [.resource .buffer buffer]
  | setVertexBufferSlot _ buffer _ => [.resource .buffer buffer]
  | setIndexBuffer buffer _ _ => [.resource .buffer buffer]
  | setTexture id => [.resource .texture id]
  | setSampler id => [.sampler id]
  | blitTexture source _ destination _ _ _ _ _ =>
    [.resource .texture source, .resource .texture destination]
  | copyBufferToBuffer source _ destination _ _ =>
    [.resource .buffer source, .resource .buffer destination]
  | setProgrammablePipeline id => [.resource .programmablePipeline id]
  | setBindGroup _ group => [.resource .bindGroup group]
  | setComputePipeline id => [.resource .computePipeline id]
  | resourceBarrier barrier => barrier.references
  | _ => []

/-- The slices of an upload. -/
def slices : Command → List ByteSlice
  | writeBuffer _ _ data => [data]
  | writeTexture _ write => [write.data]
  | setPushConstants _ _ data => [data]
  | _ => []

/-- The command as another table reads it. -/
def imported (owner : UInt64) : Command → Command
  | writeBuffer buffer offset data => writeBuffer (buffer.retarget owner) offset data.imported
  | writeTexture texture write =>
    writeTexture (texture.retarget owner) { write with data := write.data.imported }
  | copyTextureToTexture source sourceRect destination destinationRect =>
    copyTextureToTexture (source.retarget owner) sourceRect (destination.retarget owner)
      destinationRect
  | beginRenderPass d => beginRenderPass (d.retarget owner)
  | setPipeline id => setPipeline (id.retarget owner)
  | setVertexBuffer buffer offset => setVertexBuffer (buffer.retarget owner) offset
  | setVertexBufferSlot slot buffer offset =>
    setVertexBufferSlot slot (buffer.retarget owner) offset
  | setIndexBuffer buffer offset format => setIndexBuffer (buffer.retarget owner) offset format
  | setTexture id => setTexture (id.retarget owner)
  | setSampler id => setSampler (id.retarget owner)
  | blitTexture source sourceMip destination destinationMip sourceRect destinationRect filter
      flips =>
    blitTexture (source.retarget owner) sourceMip (destination.retarget owner) destinationMip
      sourceRect destinationRect filter flips
  | copyBufferToBuffer source sourceOffset destination destinationOffset size =>
    copyBufferToBuffer (source.retarget owner) sourceOffset (destination.retarget owner)
      destinationOffset size
  | setProgrammablePipeline id => setProgrammablePipeline (id.retarget owner)
  | setBindGroup index group => setBindGroup index (group.retarget owner)
  | setComputePipeline id => setComputePipeline (id.retarget owner)
  | resourceBarrier barrier => resourceBarrier (barrier.retarget owner)
  | setPushConstants stages offset data => setPushConstants stages offset data.imported
  | c => c

end Command

namespace Abi

variable {T : ResourceTable} {c c' : Command}

/-- A pass that the command begins fits the table. -/
def PassFits (T : ResourceTable) (c : Command) : Prop :=
  ∀ d, c = .beginRenderPass d → (d.retarget T.id).Fits T

theorem samplerRef_eq_ok {id id' : SamplerId} :
    T.samplerRef id = .ok id' ↔ (∃ d, T.sampler id = .ok d) ∧ id = id' := by
  unfold ResourceTable.samplerRef
  cases T.sampler id <;> simp [Except.map]

theorem renderPipelineRef_eq_ok {id id' : RenderPipelineId} :
    T.renderPipelineRef id = .ok id' ↔ (∃ d, T.renderPipeline id = .ok d) ∧ id = id' := by
  unfold ResourceTable.renderPipelineRef
  cases T.renderPipeline id <;> simp [Except.map]

theorem resolveBarrier_eq_ok {barrier barrier' : ResourceBarrier} :
    resolveBarrier T barrier = .ok barrier' ↔
      (∀ r ∈ barrier.references, (r.retarget T.id).Live T) ∧ barrier.retarget T.id = barrier' := by
  cases barrier <;> simp [resolveBarrier, except_bind_eq_ok, own_eq_ok, ResourceBarrier.references,
    ResourceBarrier.retarget, Reference.retarget, Reference.Live]

/-- A table resolves a command where it has what the command refers to, and then has its own
command. -/
theorem resolve_eq_ok : resolve T c = .ok c' ↔
    (∀ r ∈ c.references, (r.retarget T.id).Live T) ∧ PassFits T c ∧ c.imported T.id = c' := by
  cases c with
  | beginRenderPass d =>
    have live : (d.retarget T.id).Fits T →
        ∀ r ∈ (Command.beginRenderPass d).references, (r.retarget T.id).Live T := by
      rintro ⟨K, -, known⟩ r inside
      obtain ⟨id, member, rfl⟩ := List.mem_map.mp inside
      refine ⟨K (id.retarget T.id), known _ ?_⟩
      rw [RenderPassDesc.targets_retarget]
      exact List.mem_map_of_mem member
    simp only [resolve, except_bind_eq_ok, rebuildPass_eq_ok, Except.ok.injEq]
    constructor
    · rintro ⟨_, ⟨rfl, fits⟩, rfl⟩
      exact ⟨live fits, fun d' same => Command.beginRenderPass.inj same ▸ fits, rfl⟩
    · rintro ⟨-, fits, rfl⟩
      exact ⟨_, ⟨rfl, fits d rfl⟩, rfl⟩
  | resourceBarrier barrier =>
    simp [resolve, except_bind_eq_ok, resolveBarrier_eq_ok, Command.references, Command.imported,
      PassFits]
  | _ =>
    simp [resolve, except_bind_eq_ok, own_eq_ok, samplerRef_eq_ok, renderPipelineRef_eq_ok,
      Command.references, Command.imported, Reference.Live, Reference.retarget, PassFits, and_assoc]

end Abi

/-! ## Commands of the table itself -/

theorem Id.retarget_eq {c : Category} {id : Id c} {owner : UInt64} (h : id.owner = owner) :
    id.retarget owner = id := by
  subst h
  rfl

theorem SamplerId.retarget_eq {id : SamplerId} {owner : UInt64} (h : id.owner = owner) :
    id.retarget owner = id := by
  subst h
  rfl

theorem RenderPipelineId.retarget_eq {id : RenderPipelineId} {owner : UInt64}
    (h : id.owner = owner) : id.retarget owner = id := by
  subst h
  rfl

theorem RenderPassDesc.retarget_self {d : RenderPassDesc} {owner : UInt64}
    (named : ∀ id ∈ d.targets, id.owner = owner) : d.retarget owner = d := by
  have color : ∀ a ∈ d.colorAttachments, a.retarget owner = a := by
    intro a inside
    simp [ColorAttachment.retarget, Id.retarget_eq (named _ (mem_targets_of_color inside))]
  refine eq_of_parts ?_ rfl rfl rfl ?_ ?_
  · exact Id.retarget_eq (named _ d.target_mem_targets)
  · cases h : d.depth with
    | none => simp [RenderPassDesc.retarget, h]
    | some a =>
      simp [RenderPassDesc.retarget, h, DepthAttachment.retarget,
        Id.retarget_eq (named _ (mem_targets_of_depth h))]
  · have each : d.extraColors.map (ColorAttachment.retarget owner) = d.extraColors.map id :=
      List.map_congr_left fun a inside => color a (List.mem_cons_of_mem _ inside)
    exact each.trans (List.map_id _)

/-- A command with references to one table and with data is read by that table as it is. -/
theorem Command.imported_self {c : Command} {owner : UInt64}
    (named : ∀ r ∈ c.references, r.owner = owner) (data : ∀ s ∈ c.slices, s.len ≠ 0) :
    c.imported owner = c := by
  have slice : ∀ s ∈ c.slices, s.imported = s := fun s inside => if_neg (data s inside)
  cases c with
  | beginRenderPass d =>
    refine congrArg _ (RenderPassDesc.retarget_self fun id inside => ?_)
    exact named _ (List.mem_map_of_mem (f := Reference.resource .texture) inside)
  | resourceBarrier barrier =>
    cases barrier <;> simp_all [references, imported, ResourceBarrier.references,
      ResourceBarrier.retarget, Reference.owner, Id.retarget_eq]
  | _ =>
    simp_all [references, slices, imported, Reference.owner, Id.retarget_eq,
      SamplerId.retarget_eq, RenderPipelineId.retarget_eq]

end Sgfx
