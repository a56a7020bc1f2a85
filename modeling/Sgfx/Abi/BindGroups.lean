import Sgfx.Abi.Mirrors
import Sgfx.Abi.Pipelines

/-!
# Bind groups on the wire

The row of a bind group has its layout and its entries.  Identities are written without their
owner, and read as identities of the mirror.  Textures and buffers may be retired: only a texture
view is resolved when it is read, as it is checked against its texture.

## Main Definitions

* `bindingResource`, `bindGroupDesc`
* `BindingResource.retarget`, `BindGroupDesc.retarget` — the identities of another table
* `BindGroupDesc.Readable`

## Main Results

* `bindGroupDesc_reads`, `bindGroupDesc_refuses` — which bind groups a mirror reads
-/

namespace Sgfx

/-- The identity with another owner. -/
def Id.retarget {c : Category} (owner : UInt64) (id : Id c) : Id c := { id with owner := owner }

/-- The identity with another owner. -/
def SamplerId.retarget (owner : UInt64) (id : SamplerId) : SamplerId := { id with owner := owner }

def BindingResource.retarget (owner : UInt64) : BindingResource → BindingResource
  | .buffer id offset size => .buffer (id.retarget owner) offset size
  | .texture id => .texture (id.retarget owner)
  | .textureView id view => .textureView (id.retarget owner) view
  | .sampler id => .sampler (id.retarget owner)

def BindGroupEntry.retarget (owner : UInt64) (e : BindGroupEntry) : BindGroupEntry :=
  { e with resource := e.resource.retarget owner }

/-- The bind group with the identities of another table. -/
def BindGroupDesc.retarget (owner : UInt64) (d : BindGroupDesc) : BindGroupDesc :=
  { d with entries := d.entries.map (BindGroupEntry.retarget owner) }

/-- `BindGroupDesc::from_abi`. -/
def BindGroupDesc.fromAbi (layout : BindGroupLayoutDesc) (entries : List BindGroupEntry) :
    Except Error BindGroupDesc := do
  failIf (entries.length ≠ layout.entries.length ∨
    ∃ p ∈ entries.zip layout.entries, p.1.binding ≠ p.2.binding) .bindingLayoutMismatch
  pure ⟨layout, entries⟩

namespace Abi

/-! ## Rows -/

/-- What an identity names in the mirror. -/
def Contents.lookup (K : Contents) {c : Category} (id : Id c) : Option (Descriptor c) :=
  ((K.slots c)[id.index.toNat]?.filter fun slot => slot.1 = id.generation).bind Prod.snd

section Codecs

variable (K : Contents)

/-- `Codec for TextureId` and `Codec for BufferId`. -/
def resourceId (c : Category) : RowCodec (Id c) where
  put id := u64.put id.index ++ u64.put id.generation
  get := do
    let index ← u64.get
    let generation ← u64.get
    pure ⟨K.id, index, generation⟩

/-- `identity!(SamplerId)`. -/
def samplerId : RowCodec SamplerId where
  put id := u64.put id.index
  get := do
    let index ← u64.get
    let _ ← liftM (okOr K.samplers[index.toNat]? Error.invalidDescriptor)
    pure ⟨K.id, index⟩

/-- The words of a view. -/
def viewWords (view : TextureViewDesc) : List UInt64 :=
  textureFormat.put view.format ++ (textureViewDimension.put view.dimension ++
    (u32.put view.baseMipLevel ++ (u32.put view.mipLevelCount ++ (u32.put view.baseArrayLayer ++
      u32.put view.arrayLayerCount))))

/-- A view, which is checked against its texture. -/
def getView (texture : TextureDesc) : Reader UInt64 Error TextureViewDesc := do
  let format ← textureFormat.get
  let dimension ← textureViewDimension.get
  let baseMipLevel ← u32.get
  let mipLevelCount ← u32.get
  let baseArrayLayer ← u32.get
  let arrayLayerCount ← u32.get
  liftM (TextureViewDesc.new texture
    ⟨format, dimension, baseMipLevel, mipLevelCount, baseArrayLayer, arrayLayerCount⟩)

/-- `Codec for BindingResource`. -/
def bindingResource : RowCodec BindingResource where
  put
    | .buffer id offset size =>
        [0] ++ ((resourceId K .buffer).put id ++ (u64.put offset ++ u64.put size))
    | .texture id => [1] ++ (resourceId K .texture).put id
    | .sampler id => [2] ++ (samplerId K).put id
    | .textureView id view => [3] ++ ((resourceId K .texture).put id ++ viewWords view)
  get := do
    let tag ← word
    match tag.toNat with
    | 0 => do
      let buffer ← (resourceId K .buffer).get
      let offset ← u64.get
      let size ← u64.get
      pure (.buffer buffer offset size)
    | 1 => do
      let texture ← (resourceId K .texture).get
      pure (.texture texture)
    | 2 => do
      let sampler ← (samplerId K).get
      pure (.sampler sampler)
    | 3 => do
      let texture ← (resourceId K .texture).get
      let desc ← liftM (okOr (K.lookup texture) Error.invalidDescriptor)
      let view ← getView desc
      pure (.textureView texture view)
    | _ => Fallible.fail .invalidValue

def bindGroupEntry : RowCodec BindGroupEntry where
  put e := u32.put e.binding ++ (bindingResource K).put e.resource
  get := do
    let binding ← u32.get
    let resource ← (bindingResource K).get
    pure ⟨binding, resource⟩

/-- `Codec for BindGroupDesc`. -/
def bindGroupDesc : RowCodec BindGroupDesc where
  put d := bindGroupLayoutDesc.put d.layout ++ (vec (bindGroupEntry K)).put d.entries
  get := do
    let layout ← bindGroupLayoutDesc.get
    let entries ← (vec (bindGroupEntry K)).get
    liftM (BindGroupDesc.fromAbi layout entries)

end Codecs

/-! ## What a mirror reads -/

/-- The views of a resource fit their textures, and its samplers are there. -/
def BindingResource.Readable (K : Contents) : BindingResource → Prop
  | .buffer _ _ _ | .texture _ => True
  | .textureView id view => ∃ desc, K.lookup id = some desc ∧ view.validate desc = .ok ()
  | .sampler id => ∃ desc, K.samplers[id.index.toNat]? = some desc

/-- The bindings are those of the layout, and can be read. -/
structure BindGroupDesc.Readable (K : Contents) (d : BindGroupDesc) : Prop where
  fits : BindGroupDesc.fromAbi d.layout d.entries = .ok d
  entries : ∀ e ∈ d.entries, BindingResource.Readable K e.resource

section Reads

variable {K : Contents} {r : BindingResource} {e : BindGroupEntry} {d : BindGroupDesc}

theorem resourceId_reads {c : Category} (id : Id c) :
    Reads (resourceId K c).get ((resourceId K c).put id) (id.retarget K.id) :=
  (u64_readsBack id.index).bind ((u64_readsBack id.generation).bind_pure rfl)

theorem getView_reads {desc : TextureDesc} {view : TextureViewDesc}
    (fits : view.validate desc = .ok ()) : Reads (getView desc) (viewWords view) view := by
  refine (textureFormat_readsBack view.format).bind ?_
  refine (textureViewDimension_readsBack view.dimension).bind ?_
  refine Reads.bind (u32_readsBack view.baseMipLevel) ?_
  refine Reads.bind (u32_readsBack view.mipLevelCount) ?_
  refine Reads.bind (u32_readsBack view.baseArrayLayer) ?_
  refine (u32_readsBack view.arrayLayerCount).bind_lift ?_
  show (view.validate desc).map (fun _ => view) = .ok view
  rw [fits]
  rfl

theorem getView_refuses {desc : TextureDesc} {view : TextureViewDesc}
    (unfit : view.validate desc ≠ .ok ()) : Refuses (getView desc) (viewWords view) := by
  obtain ⟨error, failed⟩ : ∃ error, TextureViewDesc.new desc view = .error error := by
    unfold TextureViewDesc.new
    cases checked : view.validate desc with
    | ok => exact absurd checked unfit
    | error error => exact ⟨error, rfl⟩
  refine (textureFormat_readsBack view.format).bind_refuses ?_
  refine (textureViewDimension_readsBack view.dimension).bind_refuses ?_
  refine Reads.bind_refuses (u32_readsBack view.baseMipLevel) ?_
  refine Reads.bind_refuses (u32_readsBack view.mipLevelCount) ?_
  refine Reads.bind_refuses (u32_readsBack view.baseArrayLayer) ?_
  exact Reads.bind_refuses_last (u32_readsBack view.arrayLayerCount) (Refuses.lift failed)

/-- A resource is read with the identities of the mirror. -/
theorem bindingResource_reads (h : BindingResource.Readable K r) :
    Reads (bindingResource K).get ((bindingResource K).put r) (r.retarget K.id) := by
  cases r with
  | buffer id offset size =>
    exact (word_reads 0).bind ((resourceId_reads id).bind ((u64_readsBack offset).bind
      ((u64_readsBack size).bind_pure rfl)))
  | texture id => exact (word_reads 1).bind ((resourceId_reads id).bind_pure rfl)
  | sampler id =>
    obtain ⟨desc, found⟩ := h
    have sampler : Reads (samplerId K).get ((samplerId K).put id) (id.retarget K.id) := by
      show Reads (samplerId K).get ([id.index] ++ []) (id.retarget K.id)
      exact (word_reads id.index).bind (.lift_bind (okOr_eq_ok.mpr found) (.pure _))
    exact (word_reads 2).bind (sampler.bind_pure rfl)
  | textureView id view =>
    obtain ⟨desc, found, fits⟩ := h
    refine (word_reads 3).bind ((resourceId_reads id).bind ?_)
    exact .lift_bind (okOr_eq_ok.mpr found) ((getView_reads fits).bind_pure rfl)

/-- Other resources are refused. -/
theorem bindingResource_refuses (h : ¬ BindingResource.Readable K r) :
    Refuses (bindingResource K).get ((bindingResource K).put r) := by
  cases r with
  | buffer id offset size => exact absurd trivial h
  | texture id => exact absurd trivial h
  | sampler id =>
    have missing : okOr K.samplers[id.index.toNat]? Error.invalidDescriptor =
        .error .invalidDescriptor := by
      cases found : K.samplers[id.index.toNat]? with
      | none => rfl
      | some desc => exact absurd ⟨desc, found⟩ h
    have sampler : Refuses (samplerId K).get ((samplerId K).put id) :=
      (word_reads id.index).bind_refuses_last (Refuses.lift_bind missing)
    exact (word_reads 2).bind_refuses sampler.bind_last
  | textureView id view =>
    refine (word_reads 3).bind_refuses ((resourceId_reads id).bind_refuses ?_)
    cases found : K.lookup id with
    | none => exact Refuses.lift_bind (okOr_eq_error.mpr ⟨found, rfl⟩)
    | some desc =>
      have unfit : view.validate desc ≠ .ok () := fun fits => h ⟨desc, found, fits⟩
      exact .lift_bind_ok (okOr_eq_ok.mpr found) (getView_refuses unfit).bind_last

theorem bindGroupEntry_reads (h : BindingResource.Readable K e.resource) :
    Reads (bindGroupEntry K).get ((bindGroupEntry K).put e) (e.retarget K.id) :=
  (u32_readsBack e.binding).bind ((bindingResource_reads h).bind_pure rfl)

theorem bindGroupEntry_refuses (h : ¬ BindingResource.Readable K e.resource) :
    Refuses (bindGroupEntry K).get ((bindGroupEntry K).put e) :=
  Reads.bind_refuses (u32_readsBack e.binding) (bindingResource_refuses h).bind_last

/-- The bindings of a layout do not depend on the owner. -/
theorem fromAbi_retarget (fits : BindGroupDesc.fromAbi d.layout d.entries = .ok d) :
    BindGroupDesc.fromAbi d.layout (d.entries.map (BindGroupEntry.retarget K.id)) =
      .ok (d.retarget K.id) := by
  obtain ⟨_, checked, -⟩ := except_bind_eq_ok.mp fits
  refine except_bind_eq_ok.mpr ⟨(), ?_, rfl⟩
  rw [failIf_eq_ok, not_or] at checked ⊢
  refine ⟨by rw [List.length_map]; exact checked.1, ?_⟩
  rintro ⟨p, member, different⟩
  rw [List.zip_map_left, List.mem_map] at member
  obtain ⟨q, member, rfl⟩ := member
  exact checked.2 ⟨q, member, different⟩

theorem length_of_fits (fits : BindGroupDesc.fromAbi d.layout d.entries = .ok d) :
    d.entries.length < 2 ^ 64 := by
  obtain ⟨_, checked, -⟩ := except_bind_eq_ok.mp fits
  rw [failIf_eq_ok, not_or, not_not] at checked
  rw [checked.1]
  exact Nat.lt_of_le_of_lt d.layout.valid.1 (by decide)

/-- A bind group is read with the identities of the mirror. -/
theorem bindGroupDesc_reads (h : BindGroupDesc.Readable K d) :
    Reads (bindGroupDesc K).get ((bindGroupDesc K).put d) (d.retarget K.id) := by
  have entries : Reads (vec (bindGroupEntry K)).get ((vec (bindGroupEntry K)).put d.entries)
      (d.entries.map (BindGroupEntry.retarget K.id)) :=
    vec_reads (length_of_fits h.fits) (fun e member => bindGroupEntry_reads (h.entries e member))
      fun e _ => List.cons_ne_nil _ _
  exact Reads.bind (bindGroupLayoutDesc_readsBack d.layout)
    (entries.bind_lift (fromAbi_retarget h.fits))

/-- A bind group that fits its layout is refused for the resources of its entries only. -/
theorem bindGroupDesc_refuses (fits : BindGroupDesc.fromAbi d.layout d.entries = .ok d)
    (h : ¬ BindGroupDesc.Readable K d) :
    Refuses (bindGroupDesc K).get ((bindGroupDesc K).put d) := by
  have some : ∃ e ∈ d.entries, Refuses (bindGroupEntry K).get ((bindGroupEntry K).put e) := by
    by_contra none
    refine h ⟨fits, fun e member => ?_⟩
    by_contra unreadable
    exact none ⟨e, member, bindGroupEntry_refuses unreadable⟩
  have each : ∀ e ∈ d.entries, Reads (bindGroupEntry K).get ((bindGroupEntry K).put e)
      (e.retarget K.id) ∨ Refuses (bindGroupEntry K).get ((bindGroupEntry K).put e) := by
    intro e _
    by_cases readable : BindingResource.Readable K e.resource
    · exact .inl (bindGroupEntry_reads readable)
    · exact .inr (bindGroupEntry_refuses readable)
  have entries : Refuses (vec (bindGroupEntry K)).get ((vec (bindGroupEntry K)).put d.entries) :=
    Codec.list_refuses (usize_readsBack (length_of_fits fits)) each some
      fun e _ => List.cons_ne_nil _ _
  exact Reads.bind_refuses (bindGroupLayoutDesc_readsBack d.layout) entries.bind_last

end Reads

end Abi

end Sgfx
