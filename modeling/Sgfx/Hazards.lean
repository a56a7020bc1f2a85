import Sgfx.Runs

/-!
# Storage writes and barriers

A location that a draw or dispatch writes through a storage binding stays pending
in the encoder's ledger until a barrier that covers it is recorded, and no command
that accesses a pending location is recorded.  So in every recording a covering
barrier stands between a storage write and each later access of the location.

## Main Results

* `CommandEncoder.pending_of_storageWrite`, `CommandEncoder.pending_recorded` — what
  one recorded command does to a pending location
* `World.HazardFree.run` — the invariant of every run
* `storage_hazard_free` — the recordings of every run are free of hazards
-/

namespace Sgfx

/-! ## Storage bindings -/

/-- A texture bound whole for storage declares one level. -/
theorem BindGroupDesc.single_level_of_validate {T : ResourceTable} {g : BindGroupDesc}
    {texture : TextureId} {ty : BindingType} (valid : g.validate T = .ok ())
    (bound : (BindingResource.texture texture, ty) ∈ CommandEncoder.groupBindings g g.layout)
    (writes : bindingWrites ty = true) :
    ∃ desc, T.texture texture = .ok desc ∧ desc.mipLevelCount = 1 := by
  obtain ⟨⟨entry, layout⟩, hmem, heq⟩ := List.mem_map.mp bound
  rw [Prod.mk.injEq] at heq
  obtain ⟨hresource, rfl⟩ := heq
  simp only [validate, except_bind_eq_ok, forEach_eq_ok] at valid
  obtain ⟨_, -, _, entries, -⟩ := valid
  obtain ⟨_, -, hentry⟩ := entries (entry, layout) hmem
  rw [hresource] at hentry
  cases hty : layout.ty with
  | storageTexture format access =>
      rw [hty] at hentry
      simp only [validateEntry, except_bind_eq_ok, ResourceTable.ref_eq_ok] at hentry
      obtain ⟨reference, ⟨rfl, -⟩, desc, hdesc, -, -, hlevels⟩ := hentry
      rw [failIf_eq_ok] at hlevels
      exact ⟨desc, hdesc, by_contra fun h => hlevels (.inr (.inr h))⟩
  | storageBuffer readOnly =>
      rw [hty] at hentry
      simp [validateEntry] at hentry
  | uniformBuffer | sampledTexture | sampledTextureView | sampler | comparisonSampler =>
      rw [hty] at writes
      cases writes

/-- The bindings a draw uses come from live groups. -/
theorem mem_layoutBindings {T : ResourceTable} {layout : PipelineLayoutDesc}
    {groups : Vector (Option BindGroupId) MAX_BIND_GROUPS}
    {binding : BindingResource × BindingType} (h : binding ∈ layoutBindings T layout groups) :
    ∃ (id : BindGroupId) (g : BindGroupDesc), T.get id = .ok g ∧
      binding ∈ CommandEncoder.groupBindings g g.layout := by
  obtain ⟨set, -, hset⟩ := List.mem_flatMap.mp h
  unfold setBindings at hset
  split at hset
  · simp at hset
  · rename_i id _
    split at hset
    · rename_i g hg
      exact ⟨id, g, hg, hset⟩
    · simp at hset

theorem Command.mem_boundResources {T : ResourceTable} {b : Bindings} {command : Command}
    {binding : BindingResource × BindingType} (h : binding ∈ command.boundResources T b) :
    ∃ (id : BindGroupId) (g : BindGroupDesc), T.get id = .ok g ∧
      binding ∈ CommandEncoder.groupBindings g g.layout := by
  cases command with
  | draw | drawInstanced | drawIndexed | drawIndexedInstanced =>
      simp only [boundResources, Bindings.drawBindings] at h
      split at h
      · exact mem_layoutBindings h
      · simp at h
  | dispatch =>
      simp only [boundResources, Bindings.dispatchBindings] at h
      split at h
      · exact mem_layoutBindings h
      · simp at h
  | _ => simp [boundResources] at h

/-- A texture bound whole for storage has level zero only. -/
theorem ResourceTable.GroupsFit.single_level {T : ResourceTable} (fit : T.GroupsFit)
    {b : Bindings} {command : Command} {texture : TextureId} {ty : BindingType}
    {desc : TextureDesc}
    (bound : (BindingResource.texture texture, ty) ∈ command.boundResources T b)
    (writes : bindingWrites ty = true) (live : T.texture texture = .ok desc) {level : UInt32}
    (declared : level ∈ desc.mipLevels) : level = 0 := by
  obtain ⟨id, g, hg, hbinding⟩ := Command.mem_boundResources bound
  obtain ⟨T₀, evolves, valid⟩ := fit id g hg
  obtain ⟨desc₀, hdesc₀, single⟩ := g.single_level_of_validate valid hbinding writes
  obtain rfl := evolves.get_unique hdesc₀ live
  rw [TextureDesc.mem_mipLevels, single] at declared
  exact UInt32.toNat_inj.mp (Nat.lt_one_iff.mp declared)

/-! ## Pending locations -/

namespace CommandEncoder

variable {T : ResourceTable} {b : Bindings} {e : CommandEncoder} {command : Command}
  {l : Location}

/-- A storage write of a command leaves its key among the written keys. -/
theorem pending_of_storageWrite (fit : T.GroupsFit) (h : l ∈ command.storageWrites T b) :
    (e.recorded T b command).Pending l := by
  obtain ⟨binding, hbinding, hlocation⟩ := List.mem_flatMap.mp h
  obtain ⟨bound, writes⟩ := List.mem_filter.mp hbinding
  have written : ∀ key ∈ bindingKeys binding.1,
      key ∈ (e.recorded T b command).pendingWrites := by
    intro key hkey
    have member : key ∈ command.writtenKeys T b := List.mem_flatMap.mpr ⟨binding, hbinding, hkey⟩
    unfold recorded
    split
    · simp [Command.boundResources] at bound
    · simp [Command.boundResources] at bound
    · exact List.mem_append_right _ member
  obtain ⟨resource, ty⟩ := binding
  obtain ⟨a, ha, rfl⟩ := List.mem_map.mp hlocation
  cases resource with
  | buffer buffer offset size =>
      rw [List.mem_singleton.mp ha]
      exact written _ (by simp [bindingKeys])
  | textureView texture view =>
      obtain ⟨mip, hmip, rfl⟩ := List.mem_map.mp ha
      exact .inl (written _ (List.mem_map.mpr ⟨mip, hmip, rfl⟩))
  | texture texture =>
      simp only [bindingAccesses, textureAccesses] at ha
      split at ha
      · rename_i desc live
        obtain ⟨mip, hmip, rfl⟩ := List.mem_map.mp ha
        exact .inr ⟨fit.single_level bound writes live hmip, written _ (by simp [bindingKeys])⟩
      · simp at ha
  | sampler sampler => simp [bindingAccesses] at ha

/-- Announcing an access of one location leaves the others pending. -/
theorem pending_announce {a : AnnouncedAccess} (other : a.location ≠ l) (pending : e.Pending l) :
    (e.announce a).Pending l := by
  cases a with
  | buffer id access =>
      cases l with
      | buffer other' =>
          refine List.mem_filter.mpr ⟨pending, ?_⟩
          simp only [bne_iff_ne, ne_eq, PendingWrite.buffer.injEq]
          rintro rfl
          exact other rfl
      | mip texture level =>
          exact pending.imp (fun h => List.mem_filter.mpr ⟨h, by simp⟩)
            fun h => ⟨h.1, List.mem_filter.mpr ⟨h.2, by simp⟩⟩
  | texture id mip access =>
      cases l with
      | buffer other' => exact List.mem_filter.mpr ⟨pending, by simp⟩
      | mip texture level =>
          refine pending.imp (fun h => List.mem_filter.mpr ⟨h, ?_⟩)
            fun h => ⟨h.1, List.mem_filter.mpr ⟨h.2, ?_⟩⟩
          · simp only [Bool.and_eq_true, Bool.not_eq_true', Bool.and_eq_false_imp, beq_iff_eq,
              bne_iff_ne, ne_eq, PendingWrite.textureMip.injEq, not_and]
            refine ⟨by simp, ?_⟩
            rintro rfl rfl
            exact other rfl
          · have apart : ¬ mip = 0 ∨ ¬ texture = id := by
              by_contra both
              push Not at both
              obtain ⟨rfl, rfl⟩ := both
              exact other (by rw [h.1]; rfl)
            simpa using apart

theorem pending_foldl_announce {announced : List AnnouncedAccess}
    (other : ∀ a ∈ announced, a.location ≠ l) (pending : e.Pending l) :
    (announced.foldl announce e).Pending l := by
  induction announced generalizing e with
  | nil => exact pending
  | cons a rest ih =>
      rw [List.forall_mem_cons] at other
      exact ih other.2 (pending_announce other.1 pending)

/-- What a barrier announces it also waits for, at the same location. -/
theorem source_of_announce {barrier : ResourceBarrier} {a : AnnouncedAccess}
    (h : a ∈ barrier.announces T) : ∃ s ∈ barrier.sources T, s.location = a.location := by
  cases barrier with
  | global => simp [ResourceBarrier.announces] at h
  | buffer id before after | textureMip id mip before after =>
      rw [List.mem_singleton.mp h]
      exact ⟨_, List.mem_singleton_self _, rfl⟩
  | texture id before after =>
      simp only [ResourceBarrier.announces, ResourceBarrier.sources, textureAccesses] at h ⊢
      split at h
      · obtain ⟨mip, hmip, rfl⟩ := List.mem_map.mp h
        exact ⟨_, List.mem_map.mpr ⟨mip, hmip, rfl⟩, rfl⟩
      · simp at h

/-- A pending location stays pending unless the command covers it. -/
theorem pending_recorded (admissible : command.Admissible T b e) (uncovered : ¬ command.covers l)
    (pending : e.Pending l) : (e.recorded T b command).Pending l := by
  unfold recorded
  split
  · exact absurd ⟨_, rfl, trivial⟩ uncovered
  · rename_i barrier _
    refine pending_foldl_announce (fun a ha heq => ?_) ?_
    · obtain ⟨s, hs, hlocation⟩ := source_of_announce ha
      rw [heq] at hlocation
      have covered := (admissible.connects s hs).2.2 (hlocation ▸ pending)
      exact uncovered (hlocation ▸ covered)
    · cases l <;> exact pending
  · cases l with
    | buffer id => exact List.mem_append_left _ pending
    | mip texture level =>
        exact pending.imp (List.mem_append_left _) fun h => ⟨h.1, List.mem_append_left _ h.2⟩

end CommandEncoder

/-! ## Every run -/

namespace World

/-- No recorded command accesses a location with an uncovered storage write, and
every such location is pending. -/
structure HazardFree (w : World) : Prop where
  recorded : ∀ l, Along (fun past x => x.Uses l →
    ¬ Since (fun e => l ∈ e.storageWrites) (fun m => m.command.covers l) past)
    (executions w.log)
  pending : ∀ l, Since (fun e => l ∈ e.storageWrites) (fun m => m.command.covers l)
    (executions w.log) → w.session.encoder.Pending l

theorem HazardFree.advance {w w' : World} {event : Event} (tracks : w.Tracks)
    (h : w.HazardFree) (advances : w.Advances event w') : w'.HazardFree := by
  cases advances with
  | table | pass | notBuilt | kept => exact ⟨h.recorded, h.pending⟩
  | dropped => exact ⟨h.recorded, h.pending⟩
  | @recorded _ c command s' accept records asks =>
      have admissible := records.encoder.admissible
      refine ⟨fun l => ?_, fun l since => ?_⟩
      · rw [executions_snoc, along_snoc]
        refine ⟨h.recorded l, fun uses since => ?_⟩
        obtain ⟨a, ha, rfl⟩ := uses
        exact (admissible.admits a ha).2.synchronised (h.pending _ since)
      · rw [executions_snoc, since_snoc] at since
        rw [records.encoder.result]
        rcases since with writes | ⟨since, uncovered⟩
        · exact CommandEncoder.pending_of_storageWrite tracks.groupsFit writes
        · exact CommandEncoder.pending_recorded admissible uncovered (h.pending l since)

theorem HazardFree.run (id : UInt64) (id_ne : id ≠ 0) (events : List Event) :
    ((World.new id id_ne).run events).HazardFree :=
  run_invariant ⟨fun _ => along_nil, fun _ h => absurd h since_nil⟩
    (fun _ _ _ tracks h advances => h.advance tracks advances) events

end World

/-- **Storage writes are synchronised.**  In the recording of every run, between
a draw or dispatch that storage-writes a location and any later command that
accesses it, there is a barrier that covers the location. -/
theorem storage_hazard_free (id : UInt64) (id_ne : id ≠ 0) (events : List Event) (l : Location)
    (i j : Nat) (e f : Execution)
    (first : (executions ((World.new id id_ne).run events).log)[i]? = some e)
    (second : (executions ((World.new id id_ne).run events).log)[j]? = some f)
    (earlier : i < j) (writes : l ∈ e.storageWrites) (uses : f.Uses l) :
    ∃ k m, i < k ∧ k < j ∧
      (executions ((World.new id id_ne).run events).log)[k]? = some m ∧ m.command.covers l :=
  ((World.HazardFree.run id id_ne events).recorded l).between first second earlier writes uses

/-! ### A dispatch, a barrier and a copy -/

/-- A layout with one binding. -/
def singleLayout (stages : ShaderStages) (ty : BindingType) (visible : stages ≠ .empty)
    (storage : ∀ format access, ty = .storageTexture format access → format = .rgba8Unorm) :
    BindGroupLayoutDesc where
  entries := [⟨0, stages, ty⟩]
  valid := by
    refine ⟨by simp [MAX_BINDINGS_PER_GROUP], List.pairwise_singleton _ _, fun e he => ?_⟩
    rw [List.mem_singleton.mp he]
    exact ⟨by simp [MAX_BINDINGS_PER_GROUP], visible, storage⟩

/-- A layout with one writable storage buffer. -/
def storageLayout : BindGroupLayoutDesc :=
  singleLayout .COMPUTE (.storageBuffer false) (by decide) (by simp)

/-- A compute pipeline of that layout, whose shader is the table's first module. -/
def storagePipeline : ComputePipelineDesc where
  shader := ⟨⟨1, 0, 0⟩, .compute, "main"⟩
  layout := ⟨[storageLayout], [], by decide⟩
  stage := rfl

/-- The smallest SPIR-V module: a header. -/
def emptyModule : ShaderModuleDesc := ⟨.spirV [0x07230203, 0x00010000, 0, 1, 0], [], rfl⟩

/-- A dispatch writes the first buffer, which is then copied to the second. -/
def dispatchThenCopy : List Event :=
  [.table true (.defineBuffer sampleBuffer),
    .table true (.defineBuffer sampleBuffer),
    .table true (.defineShaderModule emptyModule),
    .table true (.defineBindGroup ⟨storageLayout, [⟨0, .buffer ⟨1, 0, 0⟩ 0 16⟩]⟩),
    .table true (.defineComputePipeline storagePipeline),
    .call grantAll .beginComputePass,
    .call grantAll (.compute (.setPipeline ⟨1, 0, 0⟩)),
    .call grantAll (.compute (.setBindGroup 0 ⟨1, 0, 0⟩)),
    .call grantAll (.compute (.dispatch 1 1 1)),
    .call grantAll .endPass,
    .call grantAll (.encoder (.resourceBarrier
      (.buffer ⟨1, 0, 0⟩ .storageReadWrite .copySource))),
    .call grantAll (.encoder (.copyBufferToBuffer ⟨1, 0, 0⟩ 0 ⟨1, 1, 0⟩ 0 16))]

theorem storage_hazard_free_copy :
    ∃ k m, 3 < k ∧ k < 6 ∧
      (executions ((World.new 1 (by decide)).run dispatchThenCopy).log)[k]? = some m ∧
      m.command.covers (.buffer ⟨1, 0, 0⟩) :=
  storage_hazard_free 1 (by decide) dispatchThenCopy (.buffer ⟨1, 0, 0⟩) 3 6 _ _
    (List.getElem?_eq_getElem (by decide +kernel)) (List.getElem?_eq_getElem (by decide +kernel))
    (by decide) (by decide +kernel) ⟨.buffer ⟨1, 0, 0⟩ .copySource, by decide +kernel, rfl⟩

end Sgfx
