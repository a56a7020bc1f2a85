import Sgfx.Abi.MirrorRows

/-!
# What a mirror resolves

A mirror that was synchronised with a table resolves what the table resolved then, with its own
identities.  The descriptors of most rows are read wherever they were written.  A bind group may
name textures that were retired after it was defined, and its texture views are checked against
their textures when its row is decoded.

## Main Definitions

* `RoundTrips` — the codecs of the descriptors of a table read back what they write
* `Synced`, `Mirrors`
* `MirrorRun` — a table and a mirror of it
* `ViewsLive` — the groups that the mirror lacks view textures that are live

## Main Results

* `Holds.get`, `Synced.mirrors` — an identity resolves in the mirror as in the table
* `nextSection` — the rows of a table are later than those of a mirror of it
* `readable_iff` — which groups are decoded
-/

namespace Sgfx

/-- The identity with another owner. -/
def RenderPipelineId.retarget (owner : UInt64) (id : RenderPipelineId) : RenderPipelineId :=
  { id with owner := owner }

namespace Abi

open Fallible ResourceTable

/-! ## Tables and their codecs -/

/-- The rows of a table fit into memory and are read back as what they were written from: those of
pipelines where their shader modules are. Bind groups have their own codec. -/
structure RoundTrips (C : Codecs) (T : ResourceTable) : Prop where
  fits : ∀ c, ∀ slot ∈ (T.pools c).slots, (slotRow (C.put.slot c) slot).length < 2 ^ 64
  resources : ∀ c, c = .texture ∨ c = .buffer ∨ c = .shaderModule →
    ∀ slot ∈ (T.pools c).slots, ∀ K, Decodes C c K slot
  programs : ∀ c, c = .computePipeline ∨ c = .programmablePipeline →
    ∀ slot ∈ (T.pools c).slots, ∀ K, K.legacyProgramIds = false →
      K.slots .shaderModule = (T.pools .shaderModule).slots.map slotContent → Decodes C c K slot
  samplers : ∀ d ∈ T.samplers,
    (C.put.sampler d).length < 2 ^ 64 ∧ ∀ K, C.get.sampler K (C.put.sampler d) = (.ok d, [])
  pipelines : ∀ d ∈ T.pipelines,
    (C.put.pipeline d).length < 2 ^ 64 ∧ ∀ K, C.get.pipeline K (C.put.pipeline d) = (.ok d, [])
  groups : ∀ K, C.put.slot .bindGroup = (bindGroupDesc K).put ∧
    C.get.slot .bindGroup K = (bindGroupDesc K).get

/-- The mirror was synchronised with this table. -/
structure Synced (C : Codecs) (T M : ResourceTable) : Prop where
  holds : ∀ c, Holds C c (T.pools c).slots M
  samplers : M.samplers = T.samplers
  pipelines : M.pipelines = T.pipelines

/-- The slots and lists of a mirror are those of the table, with its own identities, and an identity
resolves in the mirror exactly where it does in the table. -/
structure Mirrors (T M : ResourceTable) : Prop where
  slots : ∀ c, (M.pools c).slots.map slotContent = (T.pools c).slots.map (mirrored c M.id)
  samplers : M.samplers = T.samplers
  pipelines : M.pipelines = T.pipelines
  resolves : ∀ (c : Category) (id : Id c) (d : Descriptor c), id.owner = T.id →
    (T.get id = .ok d → M.get (id.retarget M.id) = .ok (retarget c M.id d)) ∧
      (M.get (id.retarget M.id) = .ok d → ∃ d', T.get id = .ok d' ∧ d = retarget c M.id d')
  resolvesSampler : ∀ id : SamplerId, id.owner = T.id →
    M.sampler (id.retarget M.id) = T.sampler id
  resolvesPipeline : ∀ id : RenderPipelineId, id.owner = T.id →
    M.renderPipeline (id.retarget M.id) = T.renderPipeline id

/-- A table with the calls on it, and a mirror of its own that is fresh or was synchronised with
snapshots of it.  A mirror that refuses a snapshot is discarded. -/
inductive MirrorRun (C : Codecs) : ResourceTable → ResourceTable → Prop
  | start (id owner : UInt64) (id_ne : id ≠ 0) (owner_ne : owner ≠ 0) :
      MirrorRun C (.new id id_ne) (.new owner owner_ne)
  | call {T M : ResourceTable} (before : MirrorRun C T M) (call : SnapshotCall) :
      MirrorRun C (call.run C.put T) M
  | fresh {T M : ResourceTable} (before : MirrorRun C T M) (owner : UInt64) (owner_ne : owner ≠ 0) :
      MirrorRun C T (.new owner owner_ne)
  | sync {T T' M M' : ResourceTable} (before : MirrorRun C T M) (codecs : RoundTrips C T)
      (revision : T.abi.revision < 2 ^ 64) {A : SnapshotAllocator} {words : List UInt64}
      {answer : UInt64 × UInt64} (taken : abiSnapshot C.put A T = (.ok words, T'))
      (applied : syncAbiSnapshot C true words M = (.ok answer, M')) : MirrorRun C T' M'

/-- The textures of the views of a group are live. -/
def BindGroupDesc.ViewsLive (T : ResourceTable) (g : BindGroupDesc) : Prop :=
  ∀ e ∈ g.entries, ∀ (texture : TextureId) (view : TextureViewDesc),
    e.resource = .textureView texture view → ∃ desc, T.get texture = .ok desc

/-- The bind groups that the mirror does not have view live textures only. -/
def ViewsLive (T M : ResourceTable) : Prop :=
  ∀ (id : BindGroupId) (g : BindGroupDesc), T.get id = .ok g →
    (∀ d, M.get (id.retarget M.id) ≠ .ok d) → BindGroupDesc.ViewsLive T g

/-! ## Identities in a mirror -/

section Resolve

variable {C : Codecs} {c : Category} {T T₀ M : ResourceTable} {id : Id c} {d : Descriptor c}

/-- What an identity names in a mirror. -/
theorem Holds.lookup {p : SlotPool (Descriptor c)} (h : Holds C c p.slots M) :
    M.lookup (id.retarget M.id) =
      (p.resolve id.index.toNat id.generation).map (retarget c M.id) := by
  have same := h.getElem? id.index.toNat
  show (((M.pools c).slots[id.index.toNat]?.filter
    (·.generation = id.generation)).bind Slot.descriptor) = _
  unfold SlotPool.resolve
  cases here : p.slots[id.index.toNat]? with
  | none =>
    rw [here, Option.map_none, Option.map_eq_none_iff] at same
    rw [same]
    rfl
  | some slot =>
    obtain ⟨held, hheld, content, state⟩ := h.some here
    rw [hheld, Option.filter_some, Option.filter_some, state.generation]
    by_cases current : slot.generation = id.generation
    · rw [if_pos (decide_eq_true current), if_pos (decide_eq_true current)]
      exact (Prod.mk.inj content).2
    · rw [if_neg (by simpa using current), if_neg (by simpa using current)]
      rfl

theorem Holds.get (h : Holds C c (T.pools c).slots M) (owner : id.owner = T.id) :
    (T.get id = .ok d → M.get (id.retarget M.id) = .ok (retarget c M.id d)) ∧
      (M.get (id.retarget M.id) = .ok d → ∃ d', T.get id = .ok d' ∧ d = retarget c M.id d') := by
  have lookup : M.lookup (id.retarget M.id) = (T.lookup id).map (retarget c M.id) := h.lookup
  refine ⟨fun live => ?_, fun live => ?_⟩
  · rw [get_eq_ok] at live ⊢
    exact ⟨rfl, by rw [lookup, live.2]; rfl⟩
  · rw [get_eq_ok, lookup] at live
    obtain ⟨d', found, same⟩ := Option.map_eq_some_iff.mp live.2
    exact ⟨d', get_eq_ok.mpr ⟨owner, found⟩, same.symm⟩

theorem Synced.mirrors (h : Synced C T M) : Mirrors T M where
  slots c := (h.holds c).contents
  samplers := h.samplers
  pipelines := h.pipelines
  resolves c _ _ owner := (h.holds c).get owner
  resolvesSampler id owner := by
    unfold ResourceTable.sampler
    rw [if_neg (not_not.mpr owner), h.samplers]
    exact if_neg (not_not.mpr rfl)
  resolvesPipeline id owner := by
    unfold ResourceTable.renderPipeline
    rw [if_neg (not_not.mpr owner), h.pipelines]
    exact if_neg (not_not.mpr rfl)

theorem later_of_evolves {α : Type} {p p' : SlotPool α} (evolves : p.Evolves p') (i : Nat)
    (slot slot' : Slot α) (before : p.slots[i]? = some slot) (after : p'.slots[i]? = some slot') :
    Later slot slot' := by
  obtain ⟨other, here, step⟩ := evolves i slot before
  rw [after, Option.some.injEq] at here
  subst here
  exact step

theorem length_le_of_evolves {α : Type} {p p' : SlotPool α} (evolves : p.Evolves p') :
    p.slots.length ≤ p'.slots.length := by
  by_contra more
  have inside : p'.slots.length < p.slots.length := Nat.lt_of_not_le more
  obtain ⟨slot, here, -⟩ := evolves _ _ (List.getElem?_eq_getElem inside)
  exact Nat.lt_irrefl _ (List.getElem?_eq_some_iff.mp here).1

/-- The next snapshot of a table, for a mirror that follows an earlier one. -/
theorem nextSection (evolves : T₀.Evolves T) (consistent : T.Consistent) (codecs : RoundTrips C T)
    (c : Category) : NextSection C c (T₀.pools c).slots (T.pools c).slots where
  grows := length_le_of_evolves (evolves.pools c)
  few := (consistent.pools c).bounded
  later := later_of_evolves (evolves.pools c)
  fits := codecs.fits c

end Resolve

/-! ## Bind groups -/

section Groups

variable {C : Codecs} {T T₁ M : ResourceTable} {K : Contents} {g : BindGroupDesc}
  {e : BindGroupEntry}

/-- A group that was validated has the bindings of its layout. -/
theorem fromAbi_of_validate (valid : g.validate T₁ = .ok ()) :
    BindGroupDesc.fromAbi g.layout g.entries = .ok g := by
  unfold BindGroupDesc.validate at valid
  obtain ⟨_, length, valid⟩ := except_bind_eq_ok.mp valid
  obtain ⟨_, entries, -⟩ := except_bind_eq_ok.mp valid
  rw [forEach_eq_ok] at entries
  refine except_bind_eq_ok.mpr ⟨(), ?_, rfl⟩
  rw [failIf_eq_ok] at length ⊢
  rw [not_or]
  refine ⟨length, ?_⟩
  rintro ⟨⟨entry, layout⟩, member, different⟩
  obtain ⟨_, binding, -⟩ := except_bind_eq_ok.mp (entries _ member)
  exact failIf_eq_ok.mp binding different

/-- Every entry of a validated group fits some type. -/
theorem validateEntry_of_validate (valid : g.validate T₁ = .ok ()) (member : e ∈ g.entries) :
    ∃ ty, BindGroupDesc.validateEntry T₁ e.resource ty = .ok () := by
  unfold BindGroupDesc.validate at valid
  obtain ⟨_, length, valid⟩ := except_bind_eq_ok.mp valid
  obtain ⟨_, entries, -⟩ := except_bind_eq_ok.mp valid
  rw [forEach_eq_ok] at entries
  rw [failIf_eq_ok, not_not] at length
  obtain ⟨i, inside, rfl⟩ := List.getElem_of_mem member
  have paired : (g.entries[i], g.layout.entries[i]) ∈ g.entries.zip g.layout.entries := by
    have inside' : i < (g.entries.zip g.layout.entries).length := by
      rw [List.length_zip]
      omega
    rw [← List.getElem_zip (h := inside')]
    exact List.getElem_mem inside'
  obtain ⟨_, -, checked⟩ := except_bind_eq_ok.mp (entries _ paired)
  exact ⟨_, checked⟩

theorem textureView_of_validateEntry {ty : BindingType} {texture : TextureId}
    {view : TextureViewDesc}
    (checked : BindGroupDesc.validateEntry T₁ (.textureView texture view) ty = .ok ()) :
    ∃ desc, T₁.get texture = .ok desc ∧ view.validate desc = .ok () := by
  cases ty with
  | sampledTextureView dimension depth =>
    simp only [BindGroupDesc.validateEntry, except_bind_eq_ok, ref_eq_ok] at checked
    obtain ⟨_, ⟨rfl, -⟩, desc, found, ⟨⟩, fits, -⟩ := checked
    exact ⟨desc, found, fits⟩
  | storageTexture format access =>
    simp only [BindGroupDesc.validateEntry, except_bind_eq_ok, ref_eq_ok] at checked
    obtain ⟨_, ⟨rfl, -⟩, desc, found, ⟨⟩, fits, -⟩ := checked
    exact ⟨desc, found, fits⟩
  | uniformBuffer | storageBuffer | sampledTexture | sampler | comparisonSampler => cases checked

theorem sampler_of_validateEntry {ty : BindingType} {id : SamplerId}
    (checked : BindGroupDesc.validateEntry T₁ (.sampler id) ty = .ok ()) :
    ∃ desc, T₁.samplers[id.index.toNat]? = some desc := by
  have found {desc : SamplerDesc} (h : T₁.sampler id = .ok desc) :
      ∃ desc, T₁.samplers[id.index.toNat]? = some desc := by
    unfold ResourceTable.sampler at h
    split at h
    · cases h
    · exact ⟨desc, okOr_eq_ok.mp h⟩
  cases ty with
  | sampler =>
    obtain ⟨_, resolved, checked⟩ := except_bind_eq_ok.mp checked
    obtain ⟨desc, here, -⟩ := except_bind_eq_ok.mp checked
    cases first : T₁.sampler id with
    | ok desc => exact found first
    | error error =>
      unfold ResourceTable.samplerRef at resolved
      rw [first] at resolved
      cases resolved
  | comparisonSampler =>
    obtain ⟨_, resolved, checked⟩ := except_bind_eq_ok.mp checked
    cases first : T₁.sampler id with
    | ok desc => exact found first
    | error error =>
      unfold ResourceTable.samplerRef at resolved
      rw [first] at resolved
      cases resolved
  | uniformBuffer | storageBuffer | sampledTexture | sampledTextureView | storageTexture =>
    cases checked

/-- What a mirror has read before the bind groups of a table. -/
structure ReadBefore (T : ResourceTable) (K : Contents) : Prop where
  textures : K.slots .texture = (T.pools .texture).slots.map slotContent
  samplers : K.samplers = T.samplers

/-- A texture of the mirror is that of the table. -/
theorem ReadBefore.lookup (h : ReadBefore T K) (texture : TextureId) :
    K.lookup texture = T.lookup texture := by
  unfold Contents.lookup ResourceTable.lookup SlotPool.resolve
  rw [h.textures, List.getElem?_map]
  cases (T.pools .texture).slots[texture.index.toNat]? with
  | none => rfl
  | some slot =>
    rw [Option.map_some, Option.filter_some, Option.filter_some]
    show ((if decide (slot.generation = texture.generation) = true then _ else _) : Option _).bind _
      = _
    by_cases current : slot.generation = texture.generation
    · rw [if_pos (decide_eq_true current), if_pos (decide_eq_true current)]
      rfl
    · rw [if_neg (by simpa using current), if_neg (by simpa using current)]
      rfl

/-- A live group is decoded exactly where the textures of its views are live. -/
theorem readable_iff (h : ReadBefore T K) (evolves : T₁.Evolves T)
    (valid : g.validate T₁ = .ok ()) :
    BindGroupDesc.Readable K g ↔ BindGroupDesc.ViewsLive T g := by
  constructor
  · intro readable e member texture view names
    have read := readable.entries e member
    rw [names] at read
    obtain ⟨desc, found, -⟩ := read
    rw [h.lookup] at found
    obtain ⟨ty, checked⟩ := validateEntry_of_validate valid member
    rw [names] at checked
    obtain ⟨_, first, -⟩ := textureView_of_validateEntry checked
    exact ⟨desc, get_eq_ok.mpr ⟨(get_eq_ok.mp first).1.trans evolves.id.symm, found⟩⟩
  · intro live
    refine ⟨fromAbi_of_validate valid, fun e member => ?_⟩
    obtain ⟨ty, checked⟩ := validateEntry_of_validate valid member
    cases names : e.resource with
    | buffer id offset size => trivial
    | texture id => trivial
    | textureView texture view =>
      rw [names] at checked
      obtain ⟨desc, first, fits⟩ := textureView_of_validateEntry checked
      obtain ⟨desc', now⟩ := live e member texture view names
      obtain rfl : desc' = desc := evolves.get_unique first now
      exact ⟨desc', (h.lookup texture).trans (get_eq_ok.mp now).2, fits⟩
    | sampler id =>
      rw [names] at checked
      obtain ⟨desc, first⟩ := sampler_of_validateEntry checked
      obtain ⟨inside, found⟩ := List.getElem?_eq_some_iff.mp first
      refine ⟨desc, ?_⟩
      rw [h.samplers]
      obtain ⟨more, grown⟩ := evolves.samplers
      rw [← grown, List.getElem?_append_left inside, first]

end Groups

end Abi

end Sgfx
