import Sgfx.Recording

/-!
# What the calls of a pass record

A pass encoder caches the bindings its recorded commands have set
(`RenderPassEncoder.Shows`), so a call that sets what is already cached records
nothing and changes nothing that a replay would see.  Every other successful call
records one command.

## Main Definitions

* `RenderPassEncoder.Shows`, `ComputePassEncoder.Shows` — the cache is the
  replayed state
* `RenderPassEncoder.Records` — one command recorded in a render pass

## Main Results

* `CommandEncoder.validateGroups_ok`
* `RenderCall.run_ok`, `ComputeCall.run_ok`
-/

namespace Sgfx

open Fallible

/-! ## Bound groups -/

namespace CommandEncoder

variable {T : ResourceTable} {alloc : Allocator} {e : CommandEncoder}
  {attachments : List TextureId} {vertices : List (Option (BufferId × UInt64))}
  {index : Option BufferId} {groups : Vector (Option BindGroupId) MAX_BIND_GROUPS}

/-- What the checks of one binding establish. -/
structure Checked (T : ResourceTable) (e : CommandEncoder)
    (binding : BindingResource × BindingType) : Prop where
  admits : ∀ a ∈ bindingAccesses T binding, T.Declares a.location ∧ e.Admits a
  live : ∀ texture, .texture texture ∈ bindingKeys binding.1 →
    ∃ desc, T.texture texture = .ok desc

theorem checkBinding_ok {binding : BindingResource × BindingType} {u : Unit}
    (h : checkBinding T e attachments vertices index binding.1 binding.2 = .ok u) :
    Checked T e binding := by
  obtain ⟨resource, ty⟩ := binding
  cases resource with
  | buffer buffer offset size =>
      simp only [checkBinding, except_bind_eq_ok, ResourceTable.ref_eq_ok,
        checkBufferAccess_eq_ok] at h
      obtain ⟨reference, ⟨rfl, desc, hdesc⟩, -, hadmits, -⟩ := h
      refine ⟨?_, by simp [bindingKeys]⟩
      rw [bindingAccesses, List.forall_mem_singleton]
      exact ⟨⟨desc, hdesc⟩, hadmits⟩
  | texture texture =>
      simp only [checkBinding, except_bind_eq_ok, ResourceTable.ref_eq_ok,
        checkTextureAccess_eq_ok] at h
      obtain ⟨reference, ⟨rfl, -⟩, -, ⟨live, hadmits⟩, -⟩ := h
      refine ⟨fun a ha => ⟨declares_of_mem_textureAccesses ha, hadmits a ha⟩, fun t ht => ?_⟩
      obtain rfl : t = reference := by simpa [bindingKeys] using ht
      exact live
  | textureView texture view =>
      simp only [checkBinding, except_bind_eq_ok, ResourceTable.ref_eq_ok, forEach_eq_ok,
        checkTextureMipAccess_eq_ok] at h
      obtain ⟨reference, ⟨rfl, -⟩, -, hadmits, -⟩ := h
      refine ⟨?_, by simp [bindingKeys]⟩
      rw [bindingAccesses, List.forall_mem_map]
      exact hadmits
  | sampler sampler => exact ⟨by simp [bindingAccesses], by simp [bindingKeys]⟩

/-- What one binding adds to the uses collected so far. -/
def useOf (binding : BindingResource × BindingType) : BindingResource × Bool :=
  (binding.1, bindingWrites binding.2)

theorem useBinding_ok {uses uses' : List (BindingResource × Bool)}
    {binding : BindingResource × BindingType}
    (h : useBinding T alloc e attachments vertices index uses binding = .ok uses') :
    uses' = uses ++ [useOf binding] ∧ Checked T e binding := by
  simp only [useBinding, except_bind_eq_ok] at h
  obtain ⟨_, hcheck, -, -, -, -, huses⟩ := h
  exact ⟨(Except.ok.inj huses).symm, checkBinding_ok hcheck⟩

theorem useGroup_ok {uses uses' : List (BindingResource × Bool)}
    {set : BindGroupLayoutDesc × Nat}
    (h : useGroup T alloc e groups attachments vertices index uses set = .ok uses') :
    uses' = uses ++ (setBindings T groups set).map useOf ∧
      ∀ binding ∈ setBindings T groups set, Checked T e binding := by
  unfold useGroup at h
  split at h
  · rename_i hempty
    have unbound : groups[set.2]?.join = none := by simp_all
    rw [setBindings, unbound]
    exact ⟨by simpa using (Except.ok.inj h).symm, by simp⟩
  · simp only [except_bind_eq_ok, okOr_eq_ok] at h
    obtain ⟨id, hid, group, hgroup, _, layout, hfold⟩ := h
    rw [failIf_eq_ok, ne_eq, not_not] at layout
    rw [← layout] at hfold
    simp only [setBindings, hid, hgroup]
    refine foldlM_ok (fun done mid => mid = uses ++ done.map useOf ∧
      ∀ binding ∈ done, Checked T e binding) (by simp) ?_ hfold
    rintro done binding s s' ⟨rfl, hdone⟩ hstep
    obtain ⟨rfl, hbinding⟩ := useBinding_ok hstep
    refine ⟨by simp, fun other hother => ?_⟩
    rcases List.mem_append.mp hother with hmem | hmem
    · exact hdone other hmem
    · rw [List.mem_singleton.mp hmem]
      exact hbinding

/-- The groups of a draw: every binding of the layout was checked, and its keys
are collected. -/
theorem validateGroups_ok {layout : PipelineLayoutDesc} {accesses : GroupAccesses}
    (h : validateGroups T alloc e layout groups attachments vertices index = .ok accesses) :
    accesses.writes = ((layoutBindings T layout groups).filter fun binding =>
        bindingWrites binding.2).flatMap (fun binding => bindingKeys binding.1) ∧
      accesses.used = (layoutBindings T layout groups).flatMap
        (fun binding => bindingKeys binding.1) ++ fetchKeys vertices index ∧
      (∀ a ∈ (layoutBindings T layout groups).flatMap (bindingAccesses T),
        T.Declares a.location ∧ e.Admits a) ∧
      ∀ texture, .texture texture ∈ (layoutBindings T layout groups).flatMap
        (fun binding => bindingKeys binding.1) → ∃ desc, T.texture texture = .ok desc := by
  simp only [validateGroups, except_bind_eq_ok] at h
  obtain ⟨uses, hfold, -, -, -, -, haccesses⟩ := h
  have collected : uses = (layoutBindings T layout groups).map useOf ∧
      ∀ binding ∈ layoutBindings T layout groups, Checked T e binding := by
    refine foldlM_ok (fun done mid => mid = (done.flatMap (setBindings T groups)).map useOf ∧
      ∀ binding ∈ done.flatMap (setBindings T groups), Checked T e binding)
      (by simp) ?_ hfold
    rintro done set s s' ⟨rfl, hdone⟩ hstep
    obtain ⟨rfl, hset⟩ := useGroup_ok hstep
    rw [List.flatMap_append, List.flatMap_singleton]
    refine ⟨by simp, fun binding hbinding => ?_⟩
    rcases List.mem_append.mp hbinding with hmem | hmem
    · exact hdone binding hmem
    · exact hset binding hmem
  obtain ⟨rfl, hbindings⟩ := collected
  rw [← Except.ok.inj haccesses]
  refine ⟨?_, ?_, fun a ha => ?_, fun texture htexture => ?_⟩
  · rw [List.filter_map, List.flatMap_map]
    rfl
  · rw [List.flatMap_map]
    rfl
  · obtain ⟨binding, hbinding, ha⟩ := List.mem_flatMap.mp ha
    exact (hbindings binding hbinding).admits a ha
  · obtain ⟨binding, hbinding, hkey⟩ := List.mem_flatMap.mp htexture
    exact (hbindings binding hbinding).live texture hkey

end CommandEncoder

/-! ## Cached slots -/

/-- Storing a slot's current value changes nothing. -/
theorem setIfInBounds_cached {α : Type} [BEq α] [LawfulBEq α] {n : Nat}
    {slots : Vector (Option α) n} {i : Nat} {v : α} (h : (slots[i]? == some (some v)) = true) :
    slots.setIfInBounds i (some v) = slots := by
  have held : slots[i]? = some (some v) := eq_of_beq h
  obtain ⟨bound, hslot⟩ := Vector.getElem?_eq_some_iff.mp held
  ext j hj
  rw [Vector.getElem_setIfInBounds]
  split
  · rename_i hij
    subst hij
    rw [hslot]
  · rfl

/-! ## Render passes -/

/-- The cache of the pass is the replayed state, in which at most one kind of
pipeline is set. -/
structure RenderPassEncoder.Shows (p : RenderPassEncoder) (b : Bindings) : Prop where
  pipeline : p.pipeline = b.pipeline
  programmablePipeline : p.programmablePipeline = b.programmablePipeline
  bindGroups : p.bindGroups = b.bindGroups
  vertexBuffers : p.vertexBuffers = b.vertexBuffers
  indexBuffer : p.indexBuffer = b.indexBuffer
  texture : p.texture = b.texture
  sampler : p.sampler = b.sampler
  uniforms : p.uniforms = b.uniforms
  scissor : p.scissor = b.scissor
  viewport : p.viewport = b.viewport
  exclusive : b.pipeline = none ∨ b.programmablePipeline = none

/-- One command was recorded in a render pass; a draw counts its resources as
used, and writes none that an earlier draw used. -/
structure RenderPassEncoder.Records (p : RenderPassEncoder) (T : ResourceTable) (b : Bindings)
    (command : Command) (p' : RenderPassEncoder) : Prop where
  encoder : p.encoder.Records T b command p'.encoder
  shows : p'.Shows (b.apply command)
  used : p'.usedResources = p.usedResources ++ command.usedKeys T b
  unused : ∀ w ∈ command.writtenKeys T b, ∀ k ∈ p.usedResources, w.aliases k = false

/-- A state command is admissible anywhere, and is recorded by a push alone. -/
theorem CommandEncoder.push_state {T : ResourceTable} {alloc : Allocator} {b : Bindings}
    {e e' : CommandEncoder} {u : Unit} {command : Command}
    (state : command.setsState = true) (h : push alloc command e = (.ok u, e')) :
    e.Records T b command e' := by
  cases command <;> first
    | (cases state; done)
    | exact ⟨⟨by simp [Command.accesses], by simp [Command.usedKeys], by simp [Command.sources]⟩,
        push_recorded h (by simp) rfl rfl rfl⟩

namespace RenderPassEncoder

variable {T : ResourceTable} {alloc : Allocator} {b : Bindings} {p p' : RenderPassEncoder}
  {u : Unit}

/-! ### Setting state -/

theorem onEncoder_ok {α : Type} {m : Fallible CommandEncoder Error α} {a : α}
    (h : onEncoder m p = (.ok a, p')) :
    ∃ e, m p.encoder = (.ok a, e) ∧ p' = { p with encoder := e } :=
  zoom_eq_ok.mp h

/-- A state command recorded in the pass. -/
theorem records_state {command : Command} (state : command.setsState = true)
    {e : CommandEncoder} {q : RenderPassEncoder}
    (hpush : CommandEncoder.push alloc command p.encoder = (.ok u, e))
    (encoder : q.encoder = e) (used : q.usedResources = p.usedResources)
    (shows : q.Shows (b.apply command)) : p.Records T b command q := by
  refine ⟨encoder ▸ CommandEncoder.push_state state hpush, shows, ?_, ?_⟩
  · rw [used, Command.usedKeys_of_setsState T b state, List.append_nil]
  · cases command <;> first | (cases state; done) | exact fun w hw => nomatch hw

/-- A cached setting is already in force; any other is recorded and cached. -/
theorem setState_ok {cached : RenderPassEncoder → Bool} {command : Command}
    {store : RenderPassEncoder → RenderPassEncoder} (state : command.setsState = true)
    (h : setState alloc cached command store p = (.ok u, p'))
    (elided : cached p = true → b.apply command = b)
    (stored : ∀ e, (store { p with encoder := e }).Shows (b.apply command))
    (frame : ∀ q, (store q).encoder = q.encoder ∧ (store q).usedResources = q.usedResources) :
    (p' = p ∧ command.Repeats b) ∨ p.Records T b command p' := by
  rw [setState, read_bind_run] at h
  split at h
  · rename_i hcached
    rw [pure_run, Prod.mk.injEq] at h
    exact .inl ⟨h.2.symm, state, elided hcached⟩
  · obtain ⟨_, mid, hencoder, hstore⟩ := bind_eq_ok.mp h
    obtain ⟨e, hpush, rfl⟩ := onEncoder_ok hencoder
    rw [update_run, Prod.mk.injEq] at hstore
    obtain ⟨-, rfl⟩ := hstore
    exact .inr (records_state state hpush (frame _).1 (frame _).2 (stored e))

theorem setPipeline_ok (shows : p.Shows b) {pipeline : RenderPipelineId}
    (h : setPipeline T alloc pipeline p = (.ok u, p')) :
    (p' = p ∧ Command.Repeats (.setPipeline pipeline) b) ∨
      p.Records T b (.setPipeline pipeline) p' := by
  simp only [setPipeline, read_bind_run, lift_bind_eq_ok] at h
  obtain ⟨_, -, _, -, h⟩ := h
  refine setState_ok rfl h (fun hcached => ?_) (fun e => ?_) fun _ => ⟨rfl, rfl⟩
  · have set : b.pipeline = some pipeline := shows.pipeline ▸ eq_of_beq hcached
    have unset : b.programmablePipeline = none := by simpa [set] using shows.exclusive
    rw [Bindings.apply, ← set, ← unset]
  · exact { shows with pipeline := rfl, programmablePipeline := rfl, exclusive := .inr rfl }

theorem setProgrammablePipeline_ok (shows : p.Shows b)
    {pipeline : ProgrammableRenderPipelineId}
    (h : setProgrammablePipeline T alloc pipeline p = (.ok u, p')) :
    (p' = p ∧ Command.Repeats (.setProgrammablePipeline pipeline) b) ∨
      p.Records T b (.setProgrammablePipeline pipeline) p' := by
  simp only [setProgrammablePipeline, read_bind_run, lift_bind_eq_ok] at h
  obtain ⟨_, -, _, -, h⟩ := h
  refine setState_ok rfl h (fun hcached => ?_) (fun e => ?_) fun _ => ⟨rfl, rfl⟩
  · have set : b.programmablePipeline = some pipeline :=
      shows.programmablePipeline ▸ eq_of_beq hcached
    have unset : b.pipeline = none := by simpa [set] using shows.exclusive
    rw [Bindings.apply, ← set, ← unset]
  · exact { shows with pipeline := rfl, programmablePipeline := rfl, exclusive := .inl rfl }

theorem setVertexBuffer_ok (shows : p.Shows b) {buffer : BufferId} {offset : UInt64}
    (h : setVertexBuffer T alloc buffer offset p = (.ok u, p')) :
    (p' = p ∧ Command.Repeats (.setVertexBuffer buffer offset) b) ∨
      p.Records T b (.setVertexBuffer buffer offset) p' := by
  simp only [setVertexBuffer, lift_bind_eq_ok] at h
  obtain ⟨_, -, h⟩ := h
  refine setState_ok rfl h (fun hcached => ?_) (fun e => ?_) fun _ => ⟨rfl, rfl⟩
  · rw [Bindings.apply, setIfInBounds_cached (by rw [← shows.vertexBuffers]; exact hcached)]
  · exact { shows with vertexBuffers := by rw [Bindings.apply, ← shows.vertexBuffers] }

theorem setVertexBufferSlot_ok (shows : p.Shows b) {slot : UInt32} {buffer : BufferId}
    {offset : UInt64} (h : setVertexBufferSlot T alloc slot buffer offset p = (.ok u, p')) :
    (p' = p ∧ Command.Repeats (Command.normalise (.setVertexBufferSlot slot buffer offset)) b) ∨
      p.Records T b (Command.normalise (.setVertexBufferSlot slot buffer offset)) p' := by
  simp only [setVertexBufferSlot, lift_bind_eq_ok] at h
  obtain ⟨_, -, h⟩ := h
  rw [Command.normalise]
  split at h
  · rename_i hzero
    rw [if_pos hzero]
    exact setVertexBuffer_ok shows h
  · rename_i hslot
    rw [if_neg hslot]
    obtain ⟨_, -, h⟩ := lift_bind_eq_ok.mp h
    refine setState_ok rfl h (fun hcached => ?_) (fun e => ?_) fun _ => ⟨rfl, rfl⟩
    · rw [Bindings.apply, setIfInBounds_cached (by rw [← shows.vertexBuffers]; exact hcached)]
    · exact { shows with vertexBuffers := by rw [Bindings.apply, ← shows.vertexBuffers] }

theorem setBindGroup_ok (shows : p.Shows b) {index : UInt32} {group : BindGroupId}
    (h : setBindGroup T alloc index group p = (.ok u, p')) :
    (p' = p ∧ Command.Repeats (.setBindGroup index group) b) ∨
      p.Records T b (.setBindGroup index group) p' := by
  simp only [setBindGroup, lift_bind_eq_ok] at h
  obtain ⟨_, -, _, -, h⟩ := h
  refine setState_ok rfl h (fun hcached => ?_) (fun e => ?_) fun _ => ⟨rfl, rfl⟩
  · rw [Bindings.apply, setIfInBounds_cached (by rw [← shows.bindGroups]; exact hcached)]
  · exact { shows with bindGroups := by rw [Bindings.apply, ← shows.bindGroups] }

/-! ### Draws -/

/-- What recording a draw takes, whatever pipeline it uses. -/
theorem records_draw {command : Command} {indexed : Bool} {e : CommandEncoder}
    (kind : command.drawKind = some indexed) (shows : p.Shows b)
    (admits : ∀ a ∈ b.drawAccesses T indexed, T.Declares a.location ∧ p.encoder.Admits a)
    (live : ∀ texture, .texture texture ∈ b.drawKeys T indexed →
      ∃ desc, T.texture texture = .ok desc)
    (unused : ∀ w ∈ command.writtenKeys T b, ∀ k ∈ p.usedResources, w.aliases k = false)
    (hpush : CommandEncoder.push alloc command p.encoder = (.ok u, e)) :
    p.Records T b command
      { p with
        encoder := { e.consumeAccesses (b.drawKeys T indexed) with
          pendingWrites := e.pendingWrites ++ command.writtenKeys T b }
        usedResources := p.usedResources ++ b.drawKeys T indexed } := by
  have hresult := (CommandEncoder.push_ok hpush).2
  subst hresult
  cases command with
  | draw | drawInstanced | drawIndexed | drawIndexedInstanced =>
      obtain rfl := Option.some.inj kind
      refine ⟨⟨⟨admits, live, by simp [Command.sources]⟩, ?_⟩, { shows with }, rfl, unused⟩
      simp only [CommandEncoder.recorded, CommandEncoder.consumedByPush,
        CommandEncoder.consumeAccesses_nil, List.nil_append]
      rfl
  | _ => cases kind

theorem validateDraw_ok {count : UInt32} (h : p.validateDraw T count = .ok u) :
    ∃ pipeline desc, p.pipeline = some pipeline ∧ T.renderPipeline pipeline = .ok desc ∧
      p.activeSampledTexture T = .ok (if desc.fragment.samples then p.texture else none) ∧
      ∀ texture ∈ (if desc.fragment.samples then p.texture else none).toList,
        (∃ desc, T.texture texture = .ok desc) ∧
          ∀ a ∈ textureAccesses T texture .sampled, p.encoder.Admits a := by
  simp only [validateDraw, except_bind_eq_ok, okOr_eq_ok, forEach_eq_ok] at h
  obtain ⟨pipeline, hpipeline, desc, hdesc, -, -, -, -, sampled, hsampled, -, htextures, -⟩ := h
  have active : p.activeSampledTexture T =
      .ok (if desc.fragment.samples then p.texture else none) := by
    simp only [activeSampledTexture, except_bind_eq_ok, okOr_eq_ok]
    exact ⟨pipeline, hpipeline, desc, hdesc, rfl⟩
  obtain rfl := Except.ok.inj (active.symm.trans hsampled)
  exact ⟨pipeline, desc, hpipeline, hdesc, active, fun texture ht =>
    CommandEncoder.checkTextureAccess_eq_ok.mp (htextures texture ht)⟩

theorem recordFixed_ok {command : Command} {keys : List PendingWrite}
    (h : recordFixed alloc command keys p = (.ok u, p')) :
    ∃ e, CommandEncoder.push alloc command p.encoder = (.ok (), e) ∧
      p' = { p with
        encoder := e.consumeAccesses keys
        usedResources := p.usedResources ++ keys } := by
  simp only [recordFixed, lift_bind_eq_ok] at h
  obtain ⟨-, -, h⟩ := h
  obtain ⟨_, mid, hencoder, hupdate⟩ := bind_eq_ok.mp h
  obtain ⟨e, hpush, rfl⟩ := onEncoder_ok hencoder
  rw [update_run, Prod.mk.injEq] at hupdate
  exact ⟨e, hpush, hupdate.2.symm⟩

/-- The tail of a fixed-function draw records it. -/
theorem records_fixed {command : Command} {indexed : Bool} {desc : RenderPipelineDesc}
    {keys : List PendingWrite} (kind : command.drawKind = some indexed) (shows : p.Shows b)
    (pipeline : b.drawPipeline T = some (.fixed desc))
    (h : recordFixed alloc command keys p = (.ok u, p'))
    (hkeys : keys = b.fixedKeys desc indexed)
    (textures : ∀ texture ∈ (if desc.fragment.samples then p.texture else none).toList,
      (∃ desc, T.texture texture = .ok desc) ∧
        ∀ a ∈ textureAccesses T texture .sampled, p.encoder.Admits a)
    (fetches : ∀ a ∈ b.indexAccesses indexed ++ b.vertexBuffers[0].toList.map
        (fun vertex => .buffer vertex.1 .vertex),
      T.Declares a.location ∧ p.encoder.Admits a) : p.Records T b command p' := by
  subst hkeys
  obtain ⟨e, hpush, rfl⟩ := recordFixed_ok h
  have accesses : b.drawAccesses T indexed = b.fixedAccesses T desc indexed := by
    simp only [Bindings.drawAccesses, pipeline]
  have keys : b.drawKeys T indexed = b.fixedKeys desc indexed := by
    simp only [Bindings.drawKeys, pipeline]
  have written : command.writtenKeys T b = [] := by
    have bound : b.drawBindings T = [] := by simp only [Bindings.drawBindings, pipeline]
    cases command <;> first | (cases kind; done) | simp [Command.writtenKeys,
      Command.boundResources, bound]
  have admits : ∀ a ∈ b.drawAccesses T indexed, T.Declares a.location ∧
      p.encoder.Admits a := by
    intro a ha
    rw [accesses, Bindings.fixedAccesses, ← shows.texture] at ha
    rcases List.mem_append.mp ha with ha | ha
    · exact fetches a ha
    · obtain ⟨texture, ht, ha⟩ := List.mem_flatMap.mp ha
      exact ⟨declares_of_mem_textureAccesses ha, (textures texture ht).2 a ha⟩
  have live : ∀ texture, .texture texture ∈ b.drawKeys T indexed →
      ∃ desc, T.texture texture = .ok desc := by
    intro texture htexture
    rw [keys, Bindings.fixedKeys, ← shows.texture] at htexture
    refine (textures texture ?_).1
    rcases List.mem_append.mp htexture with h | h
    · cases indexed <;> simp at h
    · simpa using h
  have records := records_draw kind shows admits live (by simp [written]) hpush
  rw [written, List.append_nil, keys] at records
  exact records

/-- The fixed-function pipeline in force is the one the replay has. -/
theorem Shows.fixed (shows : p.Shows b) {pipeline : RenderPipelineId}
    {desc : RenderPipelineDesc} (unset : p.programmablePipeline = none)
    (hpipeline : p.pipeline = some pipeline) (hdesc : T.renderPipeline pipeline = .ok desc) :
    b.drawPipeline T = some (.fixed desc) := by
  rw [shows.programmablePipeline] at unset
  rw [shows.pipeline] at hpipeline
  simp only [Bindings.drawPipeline, unset, hpipeline, Option.map_some, hdesc]

theorem drawFixed_ok (shows : p.Shows b) (unset : p.programmablePipeline = none)
    {vertexCount firstVertex : UInt32}
    (h : drawFixed T alloc vertexCount firstVertex p = (.ok u, p')) :
    p.Records T b (.draw vertexCount firstVertex) p' := by
  simp only [drawFixed, read_bind_run, lift_bind_eq_ok, okOr_eq_ok,
    CommandEncoder.checkBufferAccess_eq_ok] at h
  obtain ⟨_, hdraw, sampled, hsampled, -, -, -, -, vertex, hvertex, vertexDesc, hvertexDesc, -,
    hadmits, -, -, -, -, -, -, -, -, hrecord⟩ := h
  obtain ⟨pipeline, desc, hpipeline, hdesc, hactive, htextures⟩ := validateDraw_ok hdraw
  obtain rfl := Except.ok.inj (hactive.symm.trans hsampled)
  refine records_fixed rfl shows (shows.fixed unset hpipeline hdesc) hrecord ?_ htextures
    fun a ha => ?_
  · rw [Bindings.fixedKeys, ← shows.vertexBuffers, ← shows.texture, hvertex]
    rfl
  · rw [← shows.vertexBuffers, hvertex] at ha
    obtain rfl : a = .buffer vertex.1 .vertex := by
      simpa [Bindings.indexAccesses] using ha
    exact ⟨⟨vertexDesc, hvertexDesc⟩, hadmits⟩

theorem drawIndexedFixed_ok (shows : p.Shows b) (unset : p.programmablePipeline = none)
    {indexCount firstIndex : UInt32} {baseVertex : Int32}
    (h : drawIndexedFixed T alloc indexCount firstIndex baseVertex p = (.ok u, p')) :
    p.Records T b (.drawIndexed indexCount firstIndex baseVertex) p' := by
  simp only [drawIndexedFixed, read_bind_run, lift_bind_eq_ok, okOr_eq_ok,
    CommandEncoder.checkBufferAccess_eq_ok] at h
  obtain ⟨_, hdraw, sampled, hsampled, -, -, -, -, vertex, hvertex, vertexDesc, hvertexDesc, -,
    hadmits, -, -, -, -, index, hindex, indexDesc, hindexDesc, -, hindexAdmits, -, -, -, -, -, -,
    hrecord⟩ := h
  obtain ⟨pipeline, desc, hpipeline, hdesc, hactive, htextures⟩ := validateDraw_ok hdraw
  obtain rfl := Except.ok.inj (hactive.symm.trans hsampled)
  refine records_fixed rfl shows (shows.fixed unset hpipeline hdesc) hrecord ?_ htextures
    fun a ha => ?_
  · rw [Bindings.fixedKeys, ← shows.vertexBuffers, ← shows.texture, ← shows.indexBuffer,
      hvertex, hindex]
    rfl
  · rw [← shows.vertexBuffers, hvertex, Bindings.indexAccesses, ← shows.indexBuffer,
      hindex] at ha
    rcases List.mem_append.mp ha with ha | ha
    · obtain rfl : a = .buffer index.1 .index := by simpa using ha
      exact ⟨⟨indexDesc, hindexDesc⟩, hindexAdmits⟩
    · obtain rfl : a = .buffer vertex.1 .vertex := by simpa using ha
      exact ⟨⟨vertexDesc, hvertexDesc⟩, hadmits⟩

/-- The programmable pipeline in force is the one the replay has. -/
theorem Shows.programmable (shows : p.Shows b) {count : UInt32}
    {desc : ProgrammableRenderPipelineDesc}
    (h : p.validateProgrammableCount T count = .ok desc) :
    b.drawPipeline T = some (.programmable desc) := by
  simp only [validateProgrammableCount, except_bind_eq_ok, okOr_eq_ok] at h
  obtain ⟨pipeline, hpipeline, found, hfound, -, -, hdesc⟩ := h
  rw [shows.programmablePipeline] at hpipeline
  obtain rfl : found = desc := Except.ok.inj hdesc
  simp only [Bindings.drawPipeline, hpipeline, hfound]

/-- Every vertex slot a programmable draw fetches from was checked. -/
theorem checkVertexSlots_ok {desc : ProgrammableRenderPipelineDesc}
    {lastVertex instances firstInstance : UInt32}
    (h : forEach desc.vertexBuffers.zipIdx
      (p.checkVertexSlot T lastVertex instances firstInstance) = .ok u) :
    ∀ vertex ∈ (p.boundVertices desc).filterMap id,
      (∃ buffer, T.buffer vertex.1 = .ok buffer) ∧
        p.encoder.Admits (.buffer vertex.1 .vertex) := by
  intro vertex hvertex
  rw [List.mem_filterMap] at hvertex
  obtain ⟨_, hmem, rfl⟩ := hvertex
  obtain ⟨i, hi, hslot⟩ := List.mem_iff_getElem.mp hmem
  simp only [boundVertices, List.getElem_take, Vector.getElem_toList, List.length_take,
    Vector.length_toList] at hi hslot
  have bound : i < desc.vertexBuffers.length := by omega
  have checked := forEach_eq_ok.mp h (desc.vertexBuffers[i], i)
    (List.mk_mem_zipIdx_iff_getElem?.mpr (List.getElem?_eq_getElem bound))
  simp only [checkVertexSlot, except_bind_eq_ok, okOr_eq_ok,
    CommandEncoder.checkBufferAccess_eq_ok] at checked
  obtain ⟨found, hfound, buffer, hbuffer, -, hadmits, -⟩ := checked
  have held : p.vertexBuffers[i]? = some (some vertex) := by
    rw [Vector.getElem?_eq_getElem (by omega)]
    exact congrArg some hslot
  obtain rfl : vertex = found := by simpa [held] using hfound
  exact ⟨⟨buffer, hbuffer⟩, hadmits⟩

theorem recordProgrammable_ok {command : Command} {accesses : GroupAccesses}
    (h : recordProgrammable alloc command accesses p = (.ok u, p')) :
    ∃ e, CommandEncoder.push alloc command p.encoder = (.ok (), e) ∧
      p' = { p with
        encoder := { e.consumeAccesses accesses.used with
          pendingWrites := e.pendingWrites ++ accesses.writes }
        usedResources := p.usedResources ++ accesses.used } := by
  obtain ⟨_, mid, hencoder, hupdate⟩ := bind_eq_ok.mp h
  obtain ⟨e', hrecord, rfl⟩ := onEncoder_ok hencoder
  simp only [CommandEncoder.recordWithWrites, lift_bind_eq_ok] at hrecord
  obtain ⟨-, -, hrecord⟩ := hrecord
  obtain ⟨_, e, hpush, hwrites⟩ := bind_eq_ok.mp hrecord
  rw [update_run, Prod.mk.injEq] at hupdate hwrites
  obtain ⟨-, rfl⟩ := hwrites
  exact ⟨e, hpush, hupdate.2.symm⟩

/-- The tail of a programmable draw records it. -/
theorem records_programmable {command : Command} {indexed : Bool}
    {desc : ProgrammableRenderPipelineDesc} {accesses : GroupAccesses}
    (kind : command.drawKind = some indexed) (shows : p.Shows b)
    (pipeline : b.drawPipeline T = some (.programmable desc))
    (hgroups : p.programmableWrites T alloc desc indexed = .ok accesses)
    (hcumulative : p.validateCumulativeAccesses alloc accesses = .ok ())
    (h : recordProgrammable alloc command accesses p = (.ok u, p'))
    (vertices : ∀ vertex ∈ (p.boundVertices desc).filterMap id,
      (∃ buffer, T.buffer vertex.1 = .ok buffer) ∧
        p.encoder.Admits (.buffer vertex.1 .vertex))
    (indices : ∀ a ∈ b.indexAccesses indexed, T.Declares a.location ∧ p.encoder.Admits a) :
    p.Records T b command p' := by
  obtain ⟨e, hpush, rfl⟩ := recordProgrammable_ok h
  obtain ⟨hwrites, hused, hadmits, hlive⟩ := CommandEncoder.validateGroups_ok hgroups
  have slots : p.boundVertices desc = b.vertexSlots desc := by
    rw [boundVertices, shows.vertexBuffers, Bindings.vertexSlots]
  rw [shows.bindGroups] at hwrites hused hadmits hlive
  have keys : accesses.used = b.drawKeys T indexed := by
    simp only [Bindings.drawKeys, pipeline, Bindings.programmableKeys]
    rw [hused, slots, shows.indexBuffer]
  have written : accesses.writes = command.writtenKeys T b := by
    have bound : b.drawBindings T = layoutBindings T desc.layout b.bindGroups := by
      simp only [Bindings.drawBindings, pipeline]
    rw [hwrites]
    cases command <;> first | (cases kind; done) | simp only [Command.writtenKeys,
      Command.boundResources, bound]
  rw [keys, written]
  refine records_draw kind shows (fun a ha => ?_) (fun texture htexture => ?_)
    (fun w hw k hk => ?_) hpush
  · simp only [Bindings.drawAccesses, pipeline, Bindings.programmableAccesses] at ha
    rcases List.mem_append.mp ha with ha | ha
    · rcases List.mem_append.mp ha with ha | ha
      · exact hadmits a ha
      · obtain ⟨vertex, hvertex, rfl⟩ := List.mem_map.mp ha
        exact vertices vertex (slots ▸ hvertex)
    · exact indices a ha
  · rw [← keys, hused] at htexture
    rcases List.mem_append.mp htexture with h | h
    · exact hlive texture h
    · simp [CommandEncoder.fetchKeys] at h
  · simp only [validateCumulativeAccesses, except_bind_eq_ok, failIf_eq_ok] at hcumulative
    obtain ⟨-, apart, -⟩ := hcumulative
    simp only [List.any_eq_true, not_exists, not_and, Bool.not_eq_true] at apart
    exact apart w (written ▸ hw) k hk

theorem drawProgrammable_ok (shows : p.Shows b) {count first instances firstInstance : UInt32}
    (h : drawProgrammable T alloc count first instances firstInstance p = (.ok u, p')) :
    p.Records T b (Command.normalise (.drawInstanced count first instances firstInstance))
      p' := by
  simp only [drawProgrammable, read_bind_run, lift_bind_eq_ok] at h
  obtain ⟨_, -, _, -, desc, hcount, _, -, _, -, _, hvertices, accesses, hgroups, _, hcumulative,
    hrecord⟩ := h
  refine records_programmable ?_ shows (shows.programmable hcount) hgroups hcumulative hrecord
    (checkVertexSlots_ok hvertices) (by simp [Bindings.indexAccesses])
  rw [Command.normalise]
  split <;> rfl

theorem drawIndexedProgrammable_ok (shows : p.Shows b) {count first : UInt32}
    {baseVertex : Int32} {instances firstInstance : UInt32}
    (h : drawIndexedProgrammable T alloc count first baseVertex instances firstInstance p =
      (.ok u, p')) :
    p.Records T b
      (Command.normalise (.drawIndexedInstanced count first baseVertex instances firstInstance))
      p' := by
  simp only [drawIndexedProgrammable, read_bind_run, lift_bind_eq_ok, okOr_eq_ok,
    CommandEncoder.checkBufferAccess_eq_ok] at h
  obtain ⟨_, -, _, -, desc, hcount, _, -, _, hvertices, index, hindex, bufferDesc, hbufferDesc,
    _, hadmits, _, -, _, -, accesses, hgroups, _, hcumulative, hrecord⟩ := h
  refine records_programmable ?_ shows (shows.programmable hcount) hgroups hcumulative hrecord
    (checkVertexSlots_ok hvertices) fun a ha => ?_
  · rw [Command.normalise]
    split <;> rfl
  · rw [Bindings.indexAccesses, ← shows.indexBuffer, hindex] at ha
    obtain rfl : a = .buffer index.1 .index := by simpa using ha
    exact ⟨⟨bufferDesc, hbufferDesc⟩, hadmits⟩

end RenderPassEncoder

open RenderPassEncoder in
/-- A successful call of a render pass sets what is already in force, or records
the command it asks for. -/
theorem RenderCall.run_ok {T : ResourceTable} {alloc : Allocator} {b : Bindings}
    {p p' : RenderPassEncoder} {u : Unit} {call : RenderCall} (shows : p.Shows b)
    (h : call.run T alloc p = (.ok u, p')) :
    (p' = p ∧ call.command.normalise.Repeats b) ∨
      p.Records T b call.command.normalise p' := by
  cases call with
  | setPipeline => exact setPipeline_ok shows h
  | setVertexBuffer => exact setVertexBuffer_ok shows h
  | setVertexBufferSlot => exact setVertexBufferSlot_ok shows h
  | setIndexBuffer buffer offset format =>
      simp only [run, RenderPassEncoder.setIndexBuffer, lift_bind_eq_ok] at h
      obtain ⟨_, -, _, -, _, -, _, -, h⟩ := h
      refine setState_ok rfl h (fun hcached => ?_) (fun e => ?_) fun _ => ⟨rfl, rfl⟩
      · have set : b.indexBuffer = some (buffer, offset, format) :=
          shows.indexBuffer ▸ eq_of_beq hcached
        rw [Bindings.apply_normalise, command, Bindings.apply, ← set]
      · exact { shows with indexBuffer := rfl }
  | setTexture texture =>
      simp only [run, RenderPassEncoder.setTexture, read_bind_run, lift_bind_eq_ok] at h
      obtain ⟨_, -, _, -, _, -, _, -, _, -, h⟩ := h
      refine setState_ok rfl h (fun hcached => ?_) (fun e => ?_) fun _ => ⟨rfl, rfl⟩
      · have set : b.texture = some texture := shows.texture ▸ eq_of_beq hcached
        rw [Bindings.apply_normalise, command, Bindings.apply, ← set]
      · exact { shows with texture := rfl }
  | setSampler sampler =>
      simp only [run, RenderPassEncoder.setSampler, lift_bind_eq_ok] at h
      obtain ⟨_, -, _, -, h⟩ := h
      refine setState_ok rfl h (fun hcached => ?_) (fun e => ?_) fun _ => ⟨rfl, rfl⟩
      · have set : b.sampler = some sampler := shows.sampler ▸ eq_of_beq hcached
        rw [Bindings.apply_normalise, command, Bindings.apply, ← set]
      · exact { shows with sampler := rfl }
  | setDrawIndex =>
      obtain ⟨e, hpush, rfl⟩ := onEncoder_ok h
      exact .inr (records_state rfl hpush rfl rfl { shows with })
  | setUniforms uniforms =>
      refine setState_ok rfl h (fun hcached => ?_) (fun e => ?_) fun _ => ⟨rfl, rfl⟩
      · have set : b.uniforms = some uniforms := shows.uniforms ▸ eq_of_beq hcached
        rw [Bindings.apply_normalise, command, Bindings.apply, ← set]
      · exact { shows with uniforms := rfl }
  | setScissor scissor =>
      simp only [run, RenderPassEncoder.setScissor, read_bind_run, lift_bind_eq_ok] at h
      obtain ⟨_, -, h⟩ := h
      refine setState_ok rfl h (fun hcached => ?_) (fun e => ?_) fun _ => ⟨rfl, rfl⟩
      · have set : b.scissor = some scissor := shows.scissor ▸ eq_of_beq hcached
        rw [Bindings.apply_normalise, command, Bindings.apply, ← set]
      · exact { shows with scissor := rfl }
  | setViewport viewport =>
      simp only [run, RenderPassEncoder.setViewport, read_bind_run, lift_bind_eq_ok] at h
      obtain ⟨_, -, _, -, h⟩ := h
      refine setState_ok rfl h (fun hcached => ?_) (fun e => ?_) fun _ => ⟨rfl, rfl⟩
      · have set : b.viewport = some viewport := shows.viewport ▸ eq_of_beq hcached
        rw [Bindings.apply_normalise, command, Bindings.apply, ← set]
      · exact { shows with viewport := rfl }
  | setPushConstants =>
      simp only [run, RenderPassEncoder.setPushConstants, read_bind_run, lift_bind_eq_ok] at h
      obtain ⟨_, -, _, -, _, -, h⟩ := h
      obtain ⟨e, hpush, rfl⟩ := onEncoder_ok h
      exact .inr (records_state rfl hpush rfl rfl { shows with })
  | setProgrammablePipeline => exact setProgrammablePipeline_ok shows h
  | setBindGroup => exact setBindGroup_ok shows h
  | draw vertexCount firstVertex =>
      simp only [run, RenderPassEncoder.draw, read_bind_run] at h
      split at h
      · exact .inr (drawProgrammable_ok shows h)
      · rename_i unset
        exact .inr (drawFixed_ok shows (by simpa using unset) h)
  | drawIndexed indexCount firstIndex baseVertex =>
      simp only [run, RenderPassEncoder.drawIndexed, read_bind_run] at h
      split at h
      · exact .inr (drawIndexedProgrammable_ok shows h)
      · rename_i unset
        exact .inr (drawIndexedFixed_ok shows (by simpa using unset) h)
  | drawInstanced => exact .inr (drawProgrammable_ok shows h)
  | drawIndexedInstanced => exact .inr (drawIndexedProgrammable_ok shows h)

/-! ## Compute passes -/

/-- The cache of the pass is the replayed state. -/
structure ComputePassEncoder.Shows (p : ComputePassEncoder) (b : Bindings) : Prop where
  pipeline : p.pipeline = b.computePipeline
  bindGroups : p.bindGroups = b.bindGroups

/-- One command was recorded in a compute pass. -/
structure ComputePassEncoder.Records (p : ComputePassEncoder) (T : ResourceTable)
    (b : Bindings) (command : Command) (p' : ComputePassEncoder) : Prop where
  encoder : p.encoder.Records T b command p'.encoder
  shows : p'.Shows (b.apply command)

namespace ComputePassEncoder

variable {T : ResourceTable} {alloc : Allocator} {b : Bindings} {p p' : ComputePassEncoder}
  {u : Unit}

theorem onEncoder_ok {α : Type} {m : Fallible CommandEncoder Error α} {a : α}
    (h : onEncoder m p = (.ok a, p')) :
    ∃ e, m p.encoder = (.ok a, e) ∧ p' = { p with encoder := e } :=
  zoom_eq_ok.mp h

/-- A cached setting is already in force; any other is recorded and cached. -/
theorem setState_ok {cached : ComputePassEncoder → Bool} {command : Command}
    {store : ComputePassEncoder → ComputePassEncoder} (state : command.setsState = true)
    (h : setState alloc cached command store p = (.ok u, p'))
    (elided : cached p = true → b.apply command = b)
    (stored : ∀ e, (store { p with encoder := e }).Shows (b.apply command))
    (frame : ∀ q, (store q).encoder = q.encoder) :
    (p' = p ∧ command.Repeats b) ∨ p.Records T b command p' := by
  rw [setState, read_bind_run] at h
  split at h
  · rename_i hcached
    rw [pure_run, Prod.mk.injEq] at h
    exact .inl ⟨h.2.symm, state, elided hcached⟩
  · obtain ⟨_, mid, hencoder, hstore⟩ := bind_eq_ok.mp h
    obtain ⟨e, hpush, rfl⟩ := onEncoder_ok hencoder
    rw [update_run, Prod.mk.injEq] at hstore
    obtain ⟨-, rfl⟩ := hstore
    refine .inr ⟨?_, stored e⟩
    rw [frame]
    exact CommandEncoder.push_state state hpush

theorem dispatch_ok (shows : p.Shows b) {x y z : UInt32}
    (h : dispatch T alloc x y z p = (.ok u, p')) : p.Records T b (.dispatch x y z) p' := by
  simp only [dispatch, read_bind_run, lift_bind_eq_ok, okOr_eq_ok] at h
  obtain ⟨_, -, pipeline, hpipeline, desc, hdesc, accesses, hgroups, h⟩ := h
  obtain ⟨e', hrecord, rfl⟩ := onEncoder_ok h
  simp only [CommandEncoder.recordWithWrites, lift_bind_eq_ok] at hrecord
  obtain ⟨-, -, hrecord⟩ := hrecord
  obtain ⟨_, e, hpush, hwrites⟩ := bind_eq_ok.mp hrecord
  rw [update_run, Prod.mk.injEq] at hwrites
  obtain ⟨-, rfl⟩ := hwrites
  obtain rfl := (CommandEncoder.push_ok hpush).2
  obtain ⟨hwrites, hused, hadmits, hlive⟩ := CommandEncoder.validateGroups_ok hgroups
  rw [shows.bindGroups] at hwrites hused hadmits hlive
  rw [shows.pipeline] at hpipeline
  have bound : b.dispatchBindings T = layoutBindings T desc.layout b.bindGroups := by
    simp only [Bindings.dispatchBindings, hpipeline, Option.map_some, hdesc]
  refine ⟨⟨⟨fun a ha => ?_, fun texture htexture => ?_, by simp [Command.sources]⟩, ?_⟩,
    { shows with }⟩
  · rw [Command.accesses, bound] at ha
    exact hadmits a ha
  · rw [Command.usedKeys, bound] at htexture
    exact hlive texture htexture
  · rw [hused, hwrites]
    simp only [CommandEncoder.recorded, CommandEncoder.consumedByPush,
      CommandEncoder.consumeAccesses_nil, List.nil_append, Command.usedKeys,
      Command.writtenKeys, Command.boundResources, bound, CommandEncoder.fetchKeys,
      List.filterMap_nil, List.map_nil, Option.toList_none, List.append_nil]
    rfl

end ComputePassEncoder

open ComputePassEncoder in
/-- A successful call of a compute pass sets what is already in force, or records
the command it asks for. -/
theorem ComputeCall.run_ok {T : ResourceTable} {alloc : Allocator} {b : Bindings}
    {p p' : ComputePassEncoder} {u : Unit} {call : ComputeCall} (shows : p.Shows b)
    (h : call.run T alloc p = (.ok u, p')) :
    (p' = p ∧ call.command.Repeats b) ∨ p.Records T b call.command p' := by
  cases call with
  | setPushConstants =>
      simp only [run, ComputePassEncoder.setPushConstants, read_bind_run, lift_bind_eq_ok] at h
      obtain ⟨_, -, _, -, _, -, h⟩ := h
      obtain ⟨e, hpush, rfl⟩ := onEncoder_ok h
      exact .inr ⟨CommandEncoder.push_state rfl hpush, { shows with }⟩
  | setPipeline pipeline =>
      simp only [run, ComputePassEncoder.setPipeline, lift_bind_eq_ok] at h
      obtain ⟨_, -, h⟩ := h
      refine setState_ok rfl h (fun hcached => ?_) (fun e => ?_) fun _ => rfl
      · have set : b.computePipeline = some pipeline := shows.pipeline ▸ eq_of_beq hcached
        rw [command, Bindings.apply, ← set]
      · exact { shows with pipeline := rfl }
  | setBindGroup index group =>
      simp only [run, ComputePassEncoder.setBindGroup, lift_bind_eq_ok] at h
      obtain ⟨_, -, _, -, h⟩ := h
      refine setState_ok rfl h (fun hcached => ?_) (fun e => ?_) fun _ => rfl
      · rw [command, Bindings.apply,
          setIfInBounds_cached (by rw [← shows.bindGroups]; exact hcached)]
      · exact { shows with bindGroups := by rw [command, Bindings.apply, ← shows.bindGroups] }
  | dispatch => exact .inr (dispatch_ok shows h)

end Sgfx
