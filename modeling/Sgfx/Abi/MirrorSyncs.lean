import Sgfx.Abi.MirrorViews
import Sgfx.Abi.Retirements

/-!
# Synchronising a mirror

A mirror that is fresh, or that was last synchronised with an earlier snapshot, is synchronised with
the snapshot of a table.  Each section is applied to the mirror that the sections before it left, so
that the shader modules of a pipeline are those of the snapshot when its row is decoded.  All
sections but that of the bind groups are accepted.

## Main Definitions

* `Partway` — a mirror between two sections
* `GroupsKnown` — the groups that the mirror has, or can decode

## Main Results

* `Partway.section`, `Partway.syncSamplers`, `Partway.syncPipelines` — one section
* `sync_run_iff` — one snapshot
* `groupsKnown_iff`
* `sync_mirrors_iff` — every snapshot of a table and its mirrors
-/

namespace Sgfx.Abi

open Fallible ResourceTable

/-! ## Between two sections -/

section Frames

variable {C : Codecs} {c c' : Category} {slots : List (Slot (Descriptor c))}
  {M M' : ResourceTable}

/-- The sections of other categories leave what the mirror holds. -/
theorem Holds.frame (h : Holds C c slots M) (frame : SameBut c' M M') (other : c ≠ c') :
    Holds C c slots M' where
  contents := by
    rw [frame.pools c other, frame.id]
    exact h.contents
  rows i slot here := by
    rw [frame.accepted c other]
    exact h.rows i slot here

theorem Holds.rebuild (h : Holds C c slots M) (c' : Category) :
    Holds C c slots (rebuildFreeList c' M) := by
  by_cases same : c = c'
  · subst same
    refine ⟨?_, h.rows⟩
    unfold rebuildFreeList
    rw [setPool_same, rebuildFrom_content]
    exact h.contents
  · exact h.frame (sameBut_setPool _) same

/-- Only the samplers may differ, and the revision. -/
def SamplersGrow (M M' : ResourceTable) : Prop :=
  ∃ samplers revision,
    M' = { M with samplers := samplers, abi := { M.abi with revision := revision } }

/-- Only the pipelines may differ, and the revision. -/
def PipelinesGrow (M M' : ResourceTable) : Prop :=
  ∃ pipelines revision,
    M' = { M with pipelines := pipelines, abi := { M.abi with revision := revision } }

theorem appends_defineSampler :
    Appends defineSampler ResourceTable.samplers MAX_SAMPLERS SamplersGrow where
  refl M := ⟨M.samplers, M.abi.revision, rfl⟩
  trans := by
    rintro M _ _ ⟨_, _, rfl⟩ ⟨samplers, revision, rfl⟩
    exact ⟨samplers, revision, rfl⟩
  run M d room := by
    refine ⟨({ M with samplers := M.samplers ++ [d] } : ResourceTable).abiChanged,
      bind_pure_eq_ok.mpr ⟨⟨M.id, .ofNat M.samplers.length⟩, ?_, rfl⟩, rfl, _, _, rfl⟩
    unfold ResourceTable.defineSampler pushSampler
    rw [read_bind_run]
    refine lift_bind_eq_ok.mpr ⟨(), failIf_eq_ok.mpr (Nat.not_le.mpr room), ?_⟩
    exact lift_bind_eq_ok.mpr ⟨(), rfl, rfl⟩

theorem appends_defineRenderPipeline :
    Appends defineRenderPipeline ResourceTable.pipelines MAX_RENDER_PIPELINES PipelinesGrow where
  refl M := ⟨M.pipelines, M.abi.revision, rfl⟩
  trans := by
    rintro M _ _ ⟨_, _, rfl⟩ ⟨pipelines, revision, rfl⟩
    exact ⟨pipelines, revision, rfl⟩
  run M d room := by
    refine ⟨({ M with pipelines := M.pipelines ++ [d] } : ResourceTable).abiChanged,
      bind_pure_eq_ok.mpr ⟨⟨M.id, .ofNat M.pipelines.length⟩, ?_, rfl⟩, rfl, _, _, rfl⟩
    unfold ResourceTable.defineRenderPipeline
    rw [read_bind_run]
    refine lift_bind_eq_ok.mpr ⟨(), failIf_eq_ok.mpr (Nat.not_le.mpr room), ?_⟩
    exact lift_bind_eq_ok.mpr ⟨(), rfl, rfl⟩

end Frames

section Sections

variable {C : Codecs} {T₀ T M : ResourceTable} {done : List Category} {samplers : List SamplerDesc}
  {pipelines : List RenderPipelineDesc} {s s' : Sync} {rest : List UInt64} {c : Category}

/-- What a category of the mirror follows: the newer table, if its section is done. -/
def followed (T₀ T : ResourceTable) (done : List Category) (c : Category) :
    List (Slot (Descriptor c)) :=
  if c ∈ done then (T.pools c).slots else (T₀.pools c).slots

/-- A mirror between two sections of a snapshot of the newer table. -/
structure Partway (C : Codecs) (T₀ T : ResourceTable) (done : List Category)
    (samplers : List SamplerDesc) (pipelines : List RenderPipelineDesc) (M : ResourceTable) :
    Prop where
  holds : ∀ c, Holds C c (followed T₀ T done c) M
  samplers : M.samplers = samplers
  pipelines : M.pipelines = pipelines
  format : M.abi.legacyProgramIds = false

theorem Partway.old (h : Partway C T₀ T done samplers pipelines M) (fresh : c ∉ done) :
    Holds C c (T₀.pools c).slots M := by
  have holds := h.holds c
  rwa [followed, if_neg fresh] at holds

theorem Partway.new (h : Partway C T₀ T done samplers pipelines M) (finished : c ∈ done) :
    Holds C c (T.pools c).slots M := by
  have holds := h.holds c
  rwa [followed, if_pos finished] at holds

/-- A section of slots is done. -/
theorem Partway.next {M' : ResourceTable} (h : Partway C T₀ T done samplers pipelines M)
    (holds : Holds C c (T.pools c).slots M') (frame : SameBut c M M') :
    Partway C T₀ T (c :: done) samplers pipelines M' where
  holds c' := by
    by_cases same : c' = c
    · subst same
      rwa [followed, if_pos List.mem_cons_self]
    · have followed_eq : followed T₀ T (c :: done) c' = followed T₀ T done c' := by
        unfold followed
        simp only [List.mem_cons, same, false_or]
      rw [followed_eq]
      exact (h.holds c').frame frame same
  samplers := frame.samplers.trans h.samplers
  pipelines := frame.pipelines.trans h.pipelines
  format := frame.legacy.trans h.format

/-- A section of slots is accepted, if the mirror has the slots that it cannot decode. -/
theorem Partway.section (h : Partway C T₀ T done samplers pipelines s.table) (fresh : c ∉ done)
    (next : NextSection C c (T₀.pools c).slots (T.pools c).slots)
    (words : s.words = slotRows C.put T c ++ rest)
    (known : ∀ M, SameBut c s.table M → ∀ (i : Nat) (slot : Slot (Descriptor c)),
      (T.pools c).slots[i]? = some slot →
        HeldAt (T₀.pools c).slots i slot ∨ Decodes C c (contentsOf M) slot) :
    ∃ M, syncSlots C true c s = (.ok (), ⟨rest, M⟩) ∧
      Partway C T₀ T (c :: done) samplers pipelines M ∧ SameBut c s.table M := by
  obtain ⟨M, run, holds, frame⟩ := syncSlots_later next (h.old fresh) words known
  exact ⟨M, run, h.next holds frame, frame⟩

/-- Programs have generations in the newer format. -/
theorem Partway.syncProgramSlots (h : Partway C T₀ T done samplers pipelines s.table)
    (c : Category) : syncProgramSlots C true c s = syncSlots C true c s := by
  unfold Abi.syncProgramSlots
  rw [read_bind_run, h.format]
  rfl

/-- Samplers are appended. -/
theorem Partway.syncSamplers (h : Partway C T₀ T done samplers pipelines s.table)
    (rows : NextRows C.put.sampler C.get.sampler MAX_SAMPLERS T.samplers)
    (grows : samplers <+: T.samplers)
    (words : s.words = Abi.rows C.put.sampler T.samplers ++ rest) :
    ∃ M, syncSamplers C s = (.ok (), ⟨rest, M⟩) ∧
      Partway C T₀ T done T.samplers pipelines M ∧ M.id = s.table.id := by
  rw [← h.samplers] at grows
  obtain ⟨M, run, grown, _, _, rfl⟩ :=
    appendRows_run rows appends_defineSampler (by decide) grows words
  refine ⟨_, .trans ?_ run, ⟨fun c => ⟨(h.holds c).contents, (h.holds c).rows⟩, grown,
    h.pipelines, h.format⟩, rfl⟩
  unfold Abi.syncSamplers
  rw [read_bind_run]

/-- Fixed-function pipelines are appended. -/
theorem Partway.syncPipelines (h : Partway C T₀ T done samplers pipelines s.table)
    (rows : NextRows C.put.pipeline C.get.pipeline MAX_RENDER_PIPELINES T.pipelines)
    (grows : pipelines <+: T.pipelines)
    (words : s.words = Abi.rows C.put.pipeline T.pipelines ++ rest) :
    ∃ M, syncPipelines C s = (.ok (), ⟨rest, M⟩) ∧
      Partway C T₀ T done samplers T.pipelines M ∧ M.id = s.table.id := by
  rw [← h.pipelines] at grows
  obtain ⟨M, run, grown, _, _, rfl⟩ :=
    appendRows_run rows appends_defineRenderPipeline (by decide) grows words
  refine ⟨_, .trans ?_ run, ⟨fun c => ⟨(h.holds c).contents, (h.holds c).rows⟩, h.samplers,
    grown, h.format⟩, rfl⟩
  unfold Abi.syncPipelines
  rw [read_bind_run]

end Sections

/-! ## Bind groups -/

section Groups

variable {C : Codecs} {T₀ T M : ResourceTable} {K : Contents} {g : BindGroupDesc}

/-- A slot of a table is named by an identity. -/
theorem get_of_slot {c : Category} {i : Nat} {slot : Slot (Descriptor c)} {d : Descriptor c}
    (consistent : T.Consistent) (here : (T.pools c).slots[i]? = some slot)
    (occupant : slot.descriptor = some d) : T.get ⟨T.id, .ofNat i, slot.generation⟩ = .ok d := by
  obtain ⟨inside, -⟩ := List.getElem?_eq_some_iff.mp here
  have index : (UInt64.ofNat i).toNat = i := consistent.toNat_ofNat (Nat.le_of_lt inside)
  refine get_eq_ok.mpr ⟨rfl, SlotPool.resolve_eq_some.mpr ⟨slot, ?_, rfl, occupant⟩⟩
  rw [index, here]

/-- A group is decoded where its views are live, as it was. -/
theorem group_decodes (codecs : RoundTrips C T) (before : ReadBefore T K) (groups : T.GroupsFit)
    {id : BindGroupId} (live : T.get id = .ok g) (views : BindGroupDesc.ViewsLive T g) :
    C.get.slot .bindGroup K (C.put.slot .bindGroup g) =
      (.ok (retarget .bindGroup K.id g), []) := by
  obtain ⟨T₁, evolves, valid⟩ := groups id g live
  obtain ⟨put, get⟩ := codecs.groups K
  rw [put, get]
  have reads := bindGroupDesc_reads ((readable_iff before evolves valid).mpr views) []
  rwa [List.append_nil] at reads

/-- A group that is decoded has live views. -/
theorem views_of_decoded (codecs : RoundTrips C T) (before : ReadBefore T K) (groups : T.GroupsFit)
    {id : BindGroupId} (live : T.get id = .ok g) {a : BindGroupDesc}
    (decoded : C.get.slot .bindGroup K (C.put.slot .bindGroup g) = (.ok a, [])) :
    BindGroupDesc.ViewsLive T g := by
  obtain ⟨T₁, evolves, valid⟩ := groups id g live
  obtain ⟨put, get⟩ := codecs.groups K
  rw [put, get] at decoded
  by_contra retired
  have unreadable : ¬ BindGroupDesc.Readable K g := fun readable =>
    retired ((readable_iff before evolves valid).mp readable)
  have refuses := bindGroupDesc_refuses (fromAbi_of_validate valid) unreadable
  have read : (bindGroupDesc K).get ((bindGroupDesc K).put g ++ []) = (.ok a, []) := by
    rwa [List.append_nil]
  exact refuses.not_reads [] read

/-- The mirror has a group, or the views of the group are live. -/
def GroupsKnown (T₀ T : ResourceTable) : Prop :=
  ∀ (i : Nat) (slot : Slot (Descriptor .bindGroup)), (T.pools .bindGroup).slots[i]? = some slot →
    HeldAt (T₀.pools .bindGroup).slots i slot ∨
      ∀ g, slot.descriptor = some g → BindGroupDesc.ViewsLive T g

/-- What a mirror has follows from what it resolves. -/
theorem groupsKnown_iff (synced : Synced C T₀ M) (evolves : T₀.Evolves T)
    (consistent : T.Consistent) : GroupsKnown T₀ T ↔ ViewsLive T M := by
  constructor
  · intro known id g live lacking
    obtain ⟨owner, found⟩ := get_eq_ok.mp live
    obtain ⟨slot, here, generation, occupant⟩ := SlotPool.resolve_eq_some.mp found
    rcases known _ slot here with ⟨old, hold, content⟩ | views
    · obtain ⟨generation', occupant'⟩ := Prod.mk.inj content
      have earlier : T₀.get id = .ok g :=
        get_eq_ok.mpr ⟨owner.trans evolves.id, SlotPool.resolve_eq_some.mpr
          ⟨old, hold, generation'.trans generation, occupant'.trans occupant⟩⟩
      have owner₀ : id.owner = T₀.id := (get_eq_ok.mp earlier).1
      exact absurd (((synced.holds .bindGroup).get owner₀).1 earlier) (lacking _)
    · exact views g occupant
  · intro views i slot here
    cases occupant : slot.descriptor with
    | none =>
      refine .inr fun g some => ?_
      cases some
    | some g =>
      have live := get_of_slot consistent here occupant
      let id : BindGroupId := ⟨T.id, .ofNat i, slot.generation⟩
      by_cases held : ∃ d, M.get (id.retarget M.id) = .ok d
      · obtain ⟨d, found⟩ := held
        obtain ⟨d', earlier, -⟩ := ((synced.holds .bindGroup).get evolves.id).2 found
        obtain rfl := evolves.get_unique earlier live
        obtain ⟨old, hold, generation, occupant'⟩ :=
          SlotPool.resolve_eq_some.mp (get_eq_ok.mp earlier).2
        obtain ⟨inside, -⟩ := List.getElem?_eq_some_iff.mp here
        have index : (UInt64.ofNat i).toNat = i := consistent.toNat_ofNat (Nat.le_of_lt inside)
        rw [index] at hold
        exact .inl ⟨old, hold, Prod.ext generation (occupant'.trans occupant.symm)⟩
      · have lacking := not_exists.mp held
        refine .inr fun g' same => ?_
        obtain rfl := Option.some.inj same
        exact views _ _ live lacking

end Groups

/-! ## The sections of a snapshot -/

section Whole

variable {C : Codecs} {T₀ T M M' : ResourceTable} {done : List Category}
  {samplers : List SamplerDesc} {pipelines : List RenderPipelineDesc} {s s' : Sync} {c : Category}

/-- A mirror, the table that it was synchronised with, and what has become of the table. -/
structure Follows (C : Codecs) (T₀ T M : ResourceTable) : Prop where
  evolves : T₀.Evolves T
  consistent : T.Consistent
  groups : T.GroupsFit
  synced : Synced C T₀ M

/-- The words of the sections from the bind groups on. -/
def groupWords (E : Encoders) (T : ResourceTable) : List UInt64 :=
  slotRows E T .bindGroup ++ (slotRows E T .computePipeline ++ slotRows E T .programmablePipeline)

/-- The words of all sections. -/
def sectionWords (E : Encoders) (T : ResourceTable) : List UInt64 :=
  slotRows E T .texture ++ (slotRows E T .buffer ++ (rows E.sampler T.samplers ++
    (rows E.pipeline T.pipelines ++ (slotRows E T .shaderModule ++ groupWords E T))))

theorem uncached_eq {E : Encoders} :
    uncached E T = MAGIC :: T.id :: .ofNat T.abi.revision :: sectionWords E T := by
  unfold uncached sectionWords groupWords header
  simp only [List.append_assoc, List.cons_append, List.nil_append]

/-- The sections from the bind groups on. -/
def syncGroups (C : Codecs) : Fallible Sync Error Unit := do
  syncSlots C true .bindGroup
  syncProgramSlots C true .computePipeline
  syncProgramSlots C true .programmablePipeline

/-- A category without identities holds the descriptors of the table. -/
theorem Partway.plain (h : Partway C T₀ T done samplers pipelines M) (finished : c ∈ done)
    (plain : ∀ d, retarget c M.id d = d) :
    (contentsOf M).slots c = (T.pools c).slots.map slotContent := by
  refine (h.new finished).contents.trans (List.map_congr_left fun slot _ => ?_)
  refine congrArg (Prod.mk slot.generation) ?_
  cases slot.descriptor with
  | none => rfl
  | some d => exact congrArg some (plain d)

theorem Partway.readBefore (h : Partway C T₀ T done T.samplers pipelines M)
    (finished : .texture ∈ done) : ReadBefore T (contentsOf M) where
  textures := h.plain finished fun _ => rfl
  samplers := h.samplers

theorem Synced.partway (h : Synced C T₀ M) :
    Partway C T₀ T [] T₀.samplers T₀.pipelines (setLegacy false M) where
  holds c := ⟨(h.holds c).contents, (h.holds c).rows⟩
  samplers := h.samplers
  pipelines := h.pipelines
  format := rfl

/-- The sections before that of the bind groups are accepted. -/
theorem syncSections_groups (h : Follows C T₀ T M) (codecs : RoundTrips C T) :
    ∃ M₁, Partway C T₀ T [.shaderModule, .buffer, .texture] T.samplers T.pipelines M₁ ∧
      M₁.id = M.id ∧ syncSections C true ⟨sectionWords C.put T, setLegacy false M⟩ =
        syncGroups C ⟨groupWords C.put T, M₁⟩ := by
  have next := nextSection (C := C) h.evolves h.consistent codecs
  have known (c : Category) (resource : c = .texture ∨ c = .buffer ∨ c = .shaderModule)
      (M : ResourceTable) (i : Nat) (slot : Slot (Descriptor c))
      (here : (T.pools c).slots[i]? = some slot) :
      HeldAt (T₀.pools c).slots i slot ∨ Decodes C c (contentsOf M) slot :=
    .inr (codecs.resources c resource slot (List.mem_of_getElem? here) _)
  have start : Partway C T₀ T [] T₀.samplers T₀.pipelines (setLegacy false M) := h.synced.partway
  obtain ⟨Mt, textures, at_t, frame_t⟩ :=
    start.section (s := ⟨sectionWords C.put T, setLegacy false M⟩) (by simp) (next .texture) rfl
      fun M _ => known .texture (.inl rfl) M
  obtain ⟨Mb, buffers, at_b, frame_b⟩ :=
    at_t.section (s := ⟨_, Mt⟩) (by simp) (next .buffer) rfl
      fun M _ => known .buffer (.inr (.inl rfl)) M
  obtain ⟨Ms, appended, at_s, id_s⟩ :=
    at_b.syncSamplers (s := ⟨_, Mb⟩)
      ⟨h.consistent.samplers, fun d member => (codecs.samplers d member).2,
        fun d member => (codecs.samplers d member).1⟩ h.evolves.samplers rfl
  obtain ⟨Mp, piped, at_p, id_p⟩ :=
    at_s.syncPipelines (s := ⟨_, Ms⟩)
      ⟨h.consistent.pipelines, fun d member => (codecs.pipelines d member).2,
        fun d member => (codecs.pipelines d member).1⟩ h.evolves.pipelines rfl
  obtain ⟨Mm, modules, at_m, frame_m⟩ :=
    at_p.section (s := ⟨_, Mp⟩) (by simp) (next .shaderModule) rfl
      fun M _ => known .shaderModule (.inr (.inr rfl)) M
  refine ⟨Mm, at_m, ?_, ?_⟩
  · rw [frame_m.id, id_p, id_s, frame_b.id, frame_t.id]
    rfl
  · unfold syncSections
    rw [bind_run_of_ok textures, bind_run_of_ok buffers, bind_run_of_ok appended,
      bind_run_of_ok piped, bind_run_of_ok ((at_p.syncProgramSlots _).trans modules)]
    rfl

/-- What the section of the bind groups reads before it. -/
theorem Partway.readWhile {M₁ : ResourceTable}
    (h : Partway C T₀ T [.shaderModule, .buffer, .texture] T.samplers T.pipelines M₁)
    (frame : SameBut .bindGroup M₁ M) : ReadBefore T (contentsOf M) where
  textures := by
    have textures := (h.readBefore (by simp)).textures
    rw [← textures]
    exact congrArg (fun p : SlotPool TextureDesc => p.slots.map slotContent)
      (frame.pools .texture nofun)
  samplers := frame.samplers.trans h.samplers

/-- The programs of a mirror that has the shader modules are decoded. -/
theorem Partway.program (h : Partway C T₀ T done samplers pipelines M) (codecs : RoundTrips C T)
    (program : c = .computePipeline ∨ c = .programmablePipeline) (finished : .shaderModule ∈ done)
    (frame : SameBut c M M') {slot : Slot (Descriptor c)} (member : slot ∈ (T.pools c).slots) :
    Decodes C c (contentsOf M') slot := by
  have other : Category.shaderModule ≠ c := by
    rcases program with rfl | rfl <;> exact nofun
  refine codecs.programs c program slot member _ (frame.legacy.trans h.format) ?_
  rw [← h.plain finished fun _ => rfl]
  exact congrArg (fun p : SlotPool ShaderModuleDesc => p.slots.map slotContent)
    (frame.pools .shaderModule other)

/-- The sections from the bind groups on are accepted, if the mirror knows the groups. -/
theorem syncGroups_run {M₁ : ResourceTable} (h : Follows C T₀ T M) (codecs : RoundTrips C T)
    (before : Partway C T₀ T [.shaderModule, .buffer, .texture] T.samplers T.pipelines M₁)
    (known : GroupsKnown T₀ T) :
    ∃ M₂, syncGroups C ⟨groupWords C.put T, M₁⟩ = (.ok (), ⟨[], M₂⟩) ∧ M₂.id = M₁.id ∧
      Partway C T₀ T [.programmablePipeline, .computePipeline, .bindGroup, .shaderModule, .buffer,
        .texture] T.samplers T.pipelines M₂ := by
  have next := nextSection (C := C) h.evolves h.consistent codecs
  obtain ⟨Mg, groups, at_g, frame_g⟩ :=
    before.section (s := ⟨groupWords C.put T, M₁⟩) (by simp) (next .bindGroup) rfl
      fun M frame i slot here => (known i slot here).imp_right fun views g occupant =>
        group_decodes codecs (before.readWhile frame) h.groups
          (get_of_slot h.consistent here occupant) (views g occupant)
  obtain ⟨Mc, computes, at_c, frame_c⟩ :=
    at_g.section (s := ⟨_, Mg⟩) (by simp) (next .computePipeline) rfl
      fun M frame i slot here => .inr
        (at_g.program codecs (.inl rfl) (by simp) frame (List.mem_of_getElem? here))
  obtain ⟨Mp, programs, at_p, frame_p⟩ :=
    at_c.section (s := ⟨_, Mc⟩) (by simp) (next .programmablePipeline) (List.append_nil _).symm
      fun M frame i slot here => .inr
        (at_c.program codecs (.inr rfl) (by simp) frame (List.mem_of_getElem? here))
  refine ⟨Mp, ?_, ?_, at_p⟩
  · unfold syncGroups
    rw [bind_run_of_ok groups, bind_run_of_ok ((at_g.syncProgramSlots _).trans computes)]
    exact (at_c.syncProgramSlots _).trans programs
  · rw [frame_p.id, frame_c.id, frame_g.id]

/-- The mirror knows the groups of a snapshot that it accepts. -/
theorem groupsKnown_of_ok {M₁ : ResourceTable} (h : Follows C T₀ T M) (codecs : RoundTrips C T)
    (before : Partway C T₀ T [.shaderModule, .buffer, .texture] T.samplers T.pipelines M₁)
    (ok : syncGroups C ⟨groupWords C.put T, M₁⟩ = (.ok (), s')) : GroupsKnown T₀ T := by
  have next := nextSection (C := C) h.evolves h.consistent codecs .bindGroup
  have live {slot : Slot BindGroupDesc} {i : Nat} {g : BindGroupDesc}
      (here : (T.pools .bindGroup).slots[i]? = some slot) (occupant : slot.descriptor = some g) :=
    get_of_slot h.consistent here occupant
  obtain ⟨_, _, groups, -⟩ := bind_eq_ok.mp ok
  intro i slot here
  refine (syncSlots_decodes next (before.old (by simp)) rfl ?_ groups i slot here).imp_right ?_
  · intro M frame slot member g occupant a decoded
    obtain ⟨i, here⟩ := List.getElem?_of_mem member
    have views := views_of_decoded codecs (before.readWhile frame) h.groups (live here occupant)
      decoded
    have again := group_decodes codecs (before.readWhile frame) h.groups (live here occupant) views
    exact Except.ok.inj (Prod.mk.inj (decoded.symm.trans again)).1
  · rintro ⟨M, frame, decodes⟩ g occupant
    exact views_of_decoded codecs (before.readWhile frame) h.groups (live here occupant)
      (decodes g occupant)

/-! ## One snapshot -/

theorem readHeader_run {words : List UInt64} (positive : 1 ≤ T.abi.revision)
    (small : T.abi.revision < 2 ^ 64) :
    readHeader ⟨MAGIC :: T.id :: .ofNat T.abi.revision :: words, M⟩ =
      (.ok (T.id, .ofNat T.abi.revision), ⟨words, setLegacy false M⟩) := by
  have revision_ne : UInt64.ofNat T.abi.revision ≠ 0 := by
    intro zero
    have nat := congrArg UInt64.toNat zero
    rw [UInt64.toNat_ofNat', Nat.mod_eq_of_lt small, UInt64.toNat_zero] at nat
    omega
  refine bind_eq_ok.mpr ⟨MAGIC, ⟨_, M⟩, rfl, ?_⟩
  refine lift_bind_eq_ok.mpr ⟨(), failIf_eq_ok.mpr fun h => h.1 rfl, ?_⟩
  refine bind_eq_ok.mpr
    ⟨(), ⟨T.id :: .ofNat T.abi.revision :: words, setLegacy false M⟩, ?_, ?_⟩
  · unfold onTable
    rw [decide_eq_false magic_ne_legacy]
    rfl
  refine bind_eq_ok.mpr ⟨T.id, ⟨_, setLegacy false M⟩, rfl, ?_⟩
  refine bind_eq_ok.mpr ⟨.ofNat T.abi.revision, ⟨words, setLegacy false M⟩, rfl, ?_⟩
  refine lift_bind_eq_ok.mpr ⟨(), failIf_eq_ok.mpr ?_, rfl⟩
  rintro (zero | zero)
  · exact T.id_ne zero
  · exact revision_ne zero

/-- The pipelines of a table name live shader modules, and those of its mirror do too. -/
theorem checkShaders_run (holds : ∀ c, Holds C c (T.pools c).slots M) (consistent : T.Consistent)
    (c : Category) (shaders : ∀ d, shadersOf c (retarget c M.id d) =
      (shadersOf c d).map (Id.retarget M.id)) : checkShaders c M = .ok () := by
  refine forEach_eq_ok.mpr fun held member => forEach_eq_ok.mpr fun m named => ?_
  obtain ⟨i, here⟩ := List.getElem?_of_mem member
  have same := (holds c).getElem? i
  rw [here, Option.map_some] at same
  obtain ⟨slot, hslot, content⟩ := Option.map_eq_some_iff.mp same.symm
  have descriptor : slot.descriptor.map (retarget c M.id) = held.descriptor :=
    (Prod.mk.inj content).2
  cases occupant : slot.descriptor with
  | none =>
    rw [← descriptor, occupant] at named
    cases named
  | some d =>
    rw [← descriptor, occupant] at named
    change m ∈ shadersOf c (retarget c M.id d) at named
    rw [shaders d] at named
    obtain ⟨m', member', rfl⟩ := List.mem_map.mp named
    have live : (T.pools c).resolve i slot.generation = some d :=
      SlotPool.resolve_eq_some.mpr ⟨slot, hslot, rfl, occupant⟩
    obtain ⟨e, found⟩ := consistent.shaders live m' member'
    have mirrored := ((holds .shaderModule).get (get_eq_ok.mp found).1).1 found
    rw [ref_eq_ok.mpr ⟨rfl, _, mirrored⟩]
    rfl

/-- After all sections the mirror is synchronised. -/
theorem finishSync_run (h : Partway C T₀ T done T.samplers T.pipelines M)
    (whole : ∀ c, c ∈ done) (consistent : T.Consistent) :
    ∃ M', finishSync ⟨[], M⟩ = (.ok (), ⟨[], M'⟩) ∧ Synced C T M' := by
  have holds (c : Category) : Holds C c (T.pools c).slots M := h.new (whole c)
  have computes := checkShaders_run holds consistent .computePipeline fun _ => rfl
  have programs := checkShaders_run holds consistent .programmablePipeline fun _ => rfl
  refine ⟨rebuildFreeList .programmablePipeline (rebuildFreeList .computePipeline
    (rebuildFreeList .shaderModule M)), ?_, ?_⟩
  · unfold finishSync
    rw [read_bind_run]
    refine lift_bind_eq_ok.mpr ⟨(), failIf_eq_ok.mpr (not_not.mpr rfl), ?_⟩
    refine lift_bind_eq_ok.mpr ⟨(), computes, ?_⟩
    exact lift_bind_eq_ok.mpr ⟨(), programs, rfl⟩
  · exact ⟨fun c => (((holds c).rebuild _).rebuild _).rebuild _, h.samplers, h.pipelines⟩

/-- The header and the sections before that of the bind groups are accepted. -/
theorem sync_groups (h : Follows C T₀ T M) (codecs : RoundTrips C T)
    (positive : 1 ≤ T.abi.revision) (small : T.abi.revision < 2 ^ 64) :
    ∃ M₁, Partway C T₀ T [.shaderModule, .buffer, .texture] T.samplers T.pipelines M₁ ∧
      sync C true ⟨uncached C.put T, M⟩ = (do
        syncGroups C
        finishSync
        pure (T.id, UInt64.ofNat T.abi.revision)) ⟨groupWords C.put T, M₁⟩ := by
  obtain ⟨M₁, before, -, sections⟩ := syncSections_groups h codecs
  refine ⟨M₁, before, ?_⟩
  unfold sync
  rw [uncached_eq, bind_run_of_ok (readHeader_run positive small), bind_run, sections, bind_run]

/-- A snapshot whose groups the mirror knows is accepted. -/
theorem sync_synced (h : Follows C T₀ T M) (codecs : RoundTrips C T)
    (positive : 1 ≤ T.abi.revision) (small : T.abi.revision < 2 ^ 64)
    (known : GroupsKnown T₀ T) :
    ∃ M', syncAbiSnapshot C true (uncached C.put T) M =
      (.ok (T.id, .ofNat T.abi.revision), M') ∧ Synced C T M' := by
  obtain ⟨M₁, before, run⟩ := sync_groups h codecs positive small
  obtain ⟨M₂, groups, -, after⟩ := syncGroups_run h codecs before known
  obtain ⟨M', finish, synced⟩ :=
    finishSync_run after (fun c => by cases c <;> simp) h.consistent
  rw [bind_run_of_ok groups, bind_run_of_ok finish] at run
  refine ⟨M', ?_, synced⟩
  unfold syncAbiSnapshot
  rw [run]
  rfl

theorem groupsKnown_of_sync (h : Follows C T₀ T M) (codecs : RoundTrips C T)
    (positive : 1 ≤ T.abi.revision) (small : T.abi.revision < 2 ^ 64) {answer : UInt64 × UInt64}
    (applied : syncAbiSnapshot C true (uncached C.put T) M = (.ok answer, M')) :
    GroupsKnown T₀ T := by
  obtain ⟨M₁, before, run⟩ := sync_groups h codecs positive small
  have accepted : sync C true ⟨uncached C.put T, M⟩ =
      (.ok answer, (sync C true ⟨uncached C.put T, M⟩).2) :=
    Prod.ext (Prod.mk.inj applied).1 rfl
  rw [run] at accepted
  obtain ⟨_, _, groups, -⟩ := bind_eq_ok.mp accepted
  exact groupsKnown_of_ok h codecs before groups

end Whole

/-! ## Every snapshot of a table -/

section Runs

variable {C : Codecs} {T M : ResourceTable}

theorem Kept.evolves {T' : ResourceTable} (h : Kept T T') : T.Evolves T' := by
  obtain ⟨_, _, rfl⟩ := h
  exact ⟨rfl, fun _ => .refl _, List.prefix_rfl, List.prefix_rfl⟩

theorem Kept.groupsFit {T' : ResourceTable} (h : Kept T T') (fit : T.GroupsFit) :
    T'.GroupsFit := by
  intro id g live
  have same : T.get id = .ok g := by
    obtain ⟨_, _, rfl⟩ := h
    exact live
  obtain ⟨T₀, evolves, valid⟩ := fit id g same
  exact ⟨T₀, evolves.trans h.evolves, valid⟩

theorem Kept.revision {T' : ResourceTable} (h : Kept T T') :
    T'.abi.revision = T.abi.revision := by
  obtain ⟨_, _, rfl⟩ := h
  rfl

/-- What holds of a table between its calls. -/
structure TableSound (E : Encoders) (T : ResourceTable) : Prop where
  consistent : T.Consistent
  groups : T.GroupsFit
  snapshots : SnapshotSound E T
  positive : 1 ≤ T.abi.revision

theorem TableSound.new (id : UInt64) (id_ne : id ≠ 0) :
    TableSound C.put (ResourceTable.new id id_ne) where
  consistent := ResourceTable.new_consistent id id_ne
  groups id g live := by
    have found := (get_eq_ok.mp live).2
    cases found
  snapshots := .new id id_ne
  positive := Nat.le_refl 1

theorem TableSound.kept {T' : ResourceTable} (h : TableSound C.put T) (kept : Kept T T')
    (snapshots : SnapshotSound C.put T') : TableSound C.put T' :=
  ⟨kept.consistent h.consistent, kept.groupsFit h.groups, snapshots, kept.revision ▸ h.positive⟩

/-- One call. -/
theorem TableSound.run (h : TableSound C.put T) (call : SnapshotCall) :
    TableSound C.put (call.run C.put T) ∧ T.Evolves (call.run C.put T) := by
  cases call with
  | call alloc op =>
    show TableSound C.put (op.run alloc T).2 ∧ T.Evolves (op.run alloc T).2
    match outcome : op.run alloc T with
    | (.ok r, T') =>
      have change := TableOp.run_ok outcome
      refine ⟨⟨change.consistent h.consistent, change.groupsFit h.consistent h.groups,
        h.snapshots.changed change h.consistent, ?_⟩, change.evolves h.consistent⟩
      rw [tableChange_abi change]
      exact Nat.le_add_left ..
    | (.error e, T') =>
      rw [(TableOp.run_atomic alloc op).unchanged outcome]
      exact ⟨h, .refl T⟩
  | snapshot A =>
    obtain ⟨snapshots, kept⟩ := ((abiSnapshot_ensures h.snapshots (A := A)).imp
      (fun _ _ after => after.2) fun _ _ after => ⟨after.1, after.2.1⟩).state
    exact ⟨h.kept kept snapshots, kept.evolves⟩

/-- What holds of a table and a mirror of it. -/
structure MirrorSound (C : Codecs) (T M : ResourceTable) : Prop where
  table : TableSound C.put T
  synced : ∃ T₀ : ResourceTable, T₀.Evolves T ∧ Synced C T₀ M

/-- A fresh mirror has nothing, as a table before its first call. -/
theorem Synced.new (id owner : UInt64) (id_ne : id ≠ 0) (owner_ne : owner ≠ 0) :
    Synced C (.new id id_ne) (.new owner owner_ne) where
  holds _ := ⟨rfl, fun i slot here => by cases here⟩
  samplers := rfl
  pipelines := rfl

/-- Every table comes from one before its first call. -/
theorem new_evolves : (ResourceTable.new T.id T.id_ne).Evolves T where
  id := rfl
  pools _ _ _ here := by cases here
  samplers := List.nil_prefix
  pipelines := List.nil_prefix

theorem MirrorSound.fresh (h : MirrorSound C T M) (owner : UInt64) (owner_ne : owner ≠ 0) :
    MirrorSound C T (.new owner owner_ne) :=
  ⟨h.table, _, new_evolves, .new T.id owner T.id_ne owner_ne⟩

/-- One snapshot: it is the uncached one, and it is accepted exactly if the views of the groups that
the mirror lacks are live.  The mirror has what the table has then. -/
theorem MirrorSound.sync (h : MirrorSound C T M) (codecs : RoundTrips C T)
    (small : T.abi.revision < 2 ^ 64) :
    ((∃ answer M', syncAbiSnapshot C true (uncached C.put T) M = (.ok answer, M')) →
        ViewsLive T M) ∧
      (ViewsLive T M → ∃ answer M',
        syncAbiSnapshot C true (uncached C.put T) M = (.ok answer, M') ∧ Synced C T M') := by
  obtain ⟨T₀, evolves, synced⟩ := h.synced
  have follows : Follows C T₀ T M := ⟨evolves, h.table.consistent, h.table.groups, synced⟩
  have known := groupsKnown_iff synced evolves h.table.consistent
  constructor
  · rintro ⟨answer, M', applied⟩
    exact known.mp (groupsKnown_of_sync follows codecs h.table.positive small applied)
  · intro views
    obtain ⟨M', applied, after⟩ :=
      sync_synced follows codecs h.table.positive small (known.mpr views)
    exact ⟨_, M', applied, after⟩

theorem MirrorRun.calls (run : MirrorRun C T M) (calls : List SnapshotCall) :
    MirrorRun C (runSnapshotCalls C.put T calls) M := by
  induction calls generalizing T with
  | nil => exact run
  | cons call rest ih => exact ih (run.call call)

theorem MirrorRun.sound (run : MirrorRun C T M) : MirrorSound C T M := by
  induction run with
  | start id owner id_ne owner_ne =>
    exact ⟨.new id id_ne, _, .refl _, .new id owner id_ne owner_ne⟩
  | call before call ih =>
    obtain ⟨T₀, evolves, synced⟩ := ih.synced
    obtain ⟨table, evolves'⟩ := ih.table.run call
    exact ⟨table, T₀, evolves.trans evolves', synced⟩
  | fresh before owner owner_ne ih => exact ih.fresh owner owner_ne
  | @sync T T' M M' before codecs small A words answer taken applied ih =>
    obtain ⟨rfl, snapshots, kept⟩ := (abiSnapshot_ensures ih.table.snapshots).of_eq_ok taken
    have views := (ih.sync codecs small).1 ⟨answer, M', applied⟩
    obtain ⟨answer', M'', applied', synced⟩ := (ih.sync codecs small).2 views
    obtain ⟨-, rfl⟩ := Prod.mk.inj (applied.symm.trans applied')
    exact ⟨ih.table.kept kept snapshots, T, kept.evolves, synced⟩

/-- A snapshot is applied to a mirror, which has the slots of the table then and resolves what the
table resolves, exactly if every bind group that the mirror lacks views live textures only. -/
theorem sync_mirrors_iff {C : Codecs} {T T' M : ResourceTable} (run : MirrorRun C T M)
    (codecs : RoundTrips C T) (small : T.abi.revision < 2 ^ 64) {A : SnapshotAllocator}
    {words : List UInt64} (taken : abiSnapshot C.put A T = (.ok words, T')) :
    (∃ answer M', syncAbiSnapshot C true words M = (.ok answer, M') ∧ Mirrors T M') ↔
      ViewsLive T M := by
  have sound := run.sound
  obtain ⟨rfl, -, -⟩ := (abiSnapshot_ensures sound.table.snapshots).of_eq_ok taken
  have sync := sound.sync codecs small
  constructor
  · rintro ⟨answer, M', applied, -⟩
    exact sync.1 ⟨answer, M', applied⟩
  · intro views
    obtain ⟨answer, M', applied, synced⟩ := sync.2 views
    exact ⟨answer, M', applied, synced.mirrors⟩

end Runs

/-! ## A view of a texture -/

theorem square_valid :
    TextureDesc.Valid .rgba8Unorm lineExtent .SAMPLED 1 1 false false := by decide

/-- The texture of before, with two coordinates. -/
def square : TextureDesc := ⟨.rgba8Unorm, lineExtent, .SAMPLED, 1, 1, false, false, square_valid⟩

theorem viewLayout_valid :
    groupLayoutValid [⟨0, .FRAGMENT, .sampledTextureView .d2 false⟩] := by
  refine ⟨by simp [MAX_BINDINGS_PER_GROUP], List.pairwise_singleton _ _, fun e member => ?_⟩
  rw [List.mem_singleton.mp member]
  exact ⟨by simp [MAX_BINDINGS_PER_GROUP], by decide, fun _ _ storage => by cases storage⟩

/-- One view of the first texture of a table. -/
def viewGroup : BindGroupDesc :=
  ⟨⟨[⟨0, .FRAGMENT, .sampledTextureView .d2 false⟩], viewLayout_valid⟩,
    [⟨0, .textureView ⟨7, 0, 0⟩ ⟨.rgba8Unorm, .d2, 0, 1, 0, 1⟩⟩]⟩

/-- A mirror before it has read anything. -/
def noContents : Contents := ⟨0, false, fun _ => [], [], []⟩

/-- The codecs of snapshots that hold textures and bind groups. -/
def viewCodecs : Codecs where
  put :=
    { slot
        | .texture, d => textureDesc.put d
        | .bindGroup, d => (bindGroupDesc noContents).put d
        | _, _ => []
      sampler := fun _ => []
      pipeline := fun _ => [] }
  get :=
    { slot
        | .texture, _ => textureDesc.get
        | .bindGroup, K => (bindGroupDesc K).get
        | _, _ => fail .invalidDescriptor
      sampler := fun _ => fail .invalidDescriptor
      pipeline := fun _ => fail .invalidDescriptor }

/-- The square may be gone. -/
theorem viewCodecs_roundTrips {T : ResourceTable} (slot : Slot TextureDesc)
    (textures : (T.pools .texture).slots = [slot])
    (kept : ∀ d ∈ slot.descriptor, d = square)
    (groups : (T.pools .bindGroup).slots = [⟨some viewGroup, 0, none⟩])
    (others : ∀ c, c ≠ .texture → c ≠ .bindGroup → (T.pools c).slots = [])
    (samplers : T.samplers = []) (pipelines : T.pipelines = []) : RoundTrips viewCodecs T where
  fits c held member := by
    cases c with
    | texture =>
      rw [textures, List.mem_singleton] at member
      subst member
      obtain ⟨descriptor, generation, nextFree⟩ := held
      cases descriptor with
      | none => exact Nat.le_of_ble_eq_true rfl
      | some d =>
        rw [kept d rfl]
        exact Nat.le_of_ble_eq_true rfl
    | bindGroup =>
      rw [groups, List.mem_singleton] at member
      subst member
      exact Nat.le_of_ble_eq_true rfl
    | buffer | shaderModule | computePipeline | programmablePipeline =>
      rw [others _ (by decide) (by decide)] at member
      cases member
  resources c resource held member K d occupant := by
    rcases resource with rfl | rfl | rfl
    · rw [textures, List.mem_singleton] at member
      subst member
      rw [kept d occupant]
      exact (textureDesc_reads square).whole
    · rw [others _ (by decide) (by decide)] at member
      cases member
    · rw [others _ (by decide) (by decide)] at member
      cases member
  programs c program held member := by
    rcases program with rfl | rfl <;>
    · rw [others _ (by decide) (by decide)] at member
      cases member
  samplers d member := by
    rw [samplers] at member
    cases member
  pipelines d member := by
    rw [pipelines] at member
    cases member
  groups _ := ⟨rfl, rfl⟩

/-- A table with a group that views the square. -/
def viewTable : ResourceTable :=
  runSnapshotCalls viewCodecs.put (ResourceTable.new 7 snapshotOwner_ne)
    [.call true (.defineTexture square), .call true (.defineBindGroup viewGroup)]

/-- The square is released while the group is live. -/
def retiredTable : ResourceTable :=
  SnapshotCall.run viewCodecs.put viewTable (.call true (.releaseTexture ⟨7, 0, 0⟩))

theorem viewTable_run : MirrorRun viewCodecs viewTable (.new 2 mirrorOwner_ne) :=
  MirrorRun.calls (.start 7 2 snapshotOwner_ne mirrorOwner_ne) _

theorem viewTable_roundTrips : RoundTrips viewCodecs viewTable := by
  refine viewCodecs_roundTrips ⟨some square, 0, none⟩ rfl ?_ rfl ?_ rfl rfl
  · rintro d ⟨⟩
    rfl
  · intro c texture group
    cases c with
    | texture => exact absurd rfl texture
    | bindGroup => exact absurd rfl group
    | buffer | shaderModule | computePipeline | programmablePipeline => rfl

theorem retiredTable_roundTrips : RoundTrips viewCodecs retiredTable := by
  refine viewCodecs_roundTrips ⟨none, 1, none⟩ rfl ?_ rfl ?_ rfl rfl
  · rintro d ⟨⟩
  · intro c texture group
    cases c with
    | texture => exact absurd rfl texture
    | bindGroup => exact absurd rfl group
    | buffer | shaderModule | computePipeline | programmablePipeline => rfl

theorem viewTable_snapshot : abiSnapshot viewCodecs.put plenty viewTable =
    (.ok (uncached viewCodecs.put viewTable),
      (abiSnapshot viewCodecs.put plenty viewTable).2) := rfl

/-- A fresh mirror of the table whose square is live. -/
theorem sync_mirrors_iff_viewTable :
    (∃ answer M', syncAbiSnapshot viewCodecs true (uncached viewCodecs.put viewTable)
        (.new 2 mirrorOwner_ne) = (.ok answer, M') ∧ Mirrors viewTable M') ↔
      ViewsLive viewTable (.new 2 mirrorOwner_ne) :=
  sync_mirrors_iff viewTable_run viewTable_roundTrips (by decide) viewTable_snapshot

/-- A fresh mirror refuses the snapshot of a table whose group views a texture that was retired. -/
theorem sync_not_mirrors :
    ¬ ∀ (C : Codecs) (T T' M : ResourceTable) (A : SnapshotAllocator) (words : List UInt64),
      MirrorRun C T M → RoundTrips C T → T.abi.revision < 2 ^ 64 →
        abiSnapshot C.put A T = (.ok words, T') →
          ∃ answer M', syncAbiSnapshot C true words M = (.ok answer, M') ∧ Mirrors T M' := by
  intro h
  have run : MirrorRun viewCodecs retiredTable (.new 2 mirrorOwner_ne) := viewTable_run.call _
  have small : retiredTable.abi.revision < 2 ^ 64 := by decide
  have taken : abiSnapshot viewCodecs.put plenty retiredTable =
      (.ok (uncached viewCodecs.put retiredTable),
        (abiSnapshot viewCodecs.put plenty retiredTable).2) := rfl
  obtain ⟨answer, M', applied, -⟩ :=
    h viewCodecs retiredTable _ _ plenty _ run retiredTable_roundTrips small taken
  have views := (run.sound.sync retiredTable_roundTrips small).1 ⟨answer, M', applied⟩
  obtain ⟨desc, live⟩ := views ⟨7, 0, 0⟩ viewGroup rfl (fun d found => by cases found) _
    List.mem_cons_self ⟨7, 0, 0⟩ _ rfl
  cases live

end Sgfx.Abi
