import Sgfx.Owned
import Sgfx.Rejection
import Sgfx.Library.Following

/-!
# Lenient encoders

An encoder that has recorded fewer commands, and on which fewer writes and announcements are
waiting, accepts every call that the other accepts, and stays as lenient.  With the same counts and
lists it accepts and refuses alike, whether or not it keeps its commands.

## Main Definitions

* `CommandEncoder.Lenient`, `Session.Lenient`

## Main Results

* `Session.Lenient.call` — every call of a session is followed by a more lenient one
-/

namespace Sgfx

open Fallible

/-! ## Encoders -/

/-- The second encoder is at least as lenient as the first, and, if strict, as strict. -/
structure CommandEncoder.Lenient (strict : Prop) (e e' : CommandEncoder) : Prop where
  passOpen : e'.passOpen = e.passOpen
  count_le : e'.commandCount ≤ e.commandCount
  pending : e'.pendingWrites ⊆ e.pendingWrites
  announced : e'.announcedAccesses ⊆ e.announcedAccesses
  same : strict → e'.commandCount = e.commandCount ∧ e'.pendingWrites = e.pendingWrites ∧
    e'.announcedAccesses = e.announcedAccesses

namespace CommandEncoder.Lenient

open CommandEncoder Follows

variable {strict : Prop} {e e' : CommandEncoder} {T : ResourceTable}

theorem pending_contains (h : e.Lenient strict e') {key : PendingWrite} :
    (e'.pendingWrites.contains key = true → e.pendingWrites.contains key = true) ∧
      (strict → e'.pendingWrites.contains key = e.pendingWrites.contains key) := by
  refine ⟨fun hcontains => ?_, fun hstrict => by rw [(h.same hstrict).2.1]⟩
  rw [List.contains_iff_mem] at hcontains ⊢
  exact h.pending hcontains

theorem announced_any (h : e.Lenient strict e') (f : AnnouncedAccess → Bool) :
    (e'.announcedAccesses.any f = true → e.announcedAccesses.any f = true) ∧
      (strict → e'.announcedAccesses.any f = e.announcedAccesses.any f) := by
  refine ⟨fun hany => ?_, fun hstrict => by rw [(h.same hstrict).2.2]⟩
  rw [List.any_eq_true] at hany ⊢
  obtain ⟨entry, hentry, hf⟩ := hany
  exact ⟨entry, h.announced hentry, hf⟩

theorem mipPending (h : e.Lenient strict e') {texture : TextureId} {mip : UInt32} :
    (e'.mipPending texture mip = true → e.mipPending texture mip = true) ∧
      (strict → e'.mipPending texture mip = e.mipPending texture mip) := by
  constructor
  · unfold CommandEncoder.mipPending
    rw [Bool.or_eq_true, Bool.or_eq_true, Bool.and_eq_true, Bool.and_eq_true]
    rintro (hmip | ⟨hzero, htexture⟩)
    · exact .inl (h.pending_contains.1 hmip)
    · exact .inr ⟨hzero, h.pending_contains.1 htexture⟩
  · intro hstrict
    rw [CommandEncoder.mipPending, CommandEncoder.mipPending, h.pending_contains.2 hstrict,
      h.pending_contains.2 hstrict]

/-- A check that an announcement fails. -/
theorem failIf_announced (h : e.Lenient strict e') (f : AnnouncedAccess → Bool) (error : Error) :
    Check strict (failIf (e.announcedAccesses.any f = true) error)
      (failIf (e'.announcedAccesses.any f = true) error) :=
  .failIf (h.announced_any f).1 fun hstrict hany => ((h.announced_any f).2 hstrict).trans hany

theorem ensureOutsidePass (h : e.Lenient strict e') :
    Check strict e.ensureOutsidePass e'.ensureOutsidePass :=
  .failIf (fun hopen => h.passOpen ▸ hopen) fun _ hopen => h.passOpen.trans hopen

theorem reservePassBegin (h : e.Lenient strict e') :
    Check strict e.reservePassBegin e'.reservePassBegin :=
  .failIf (fun hcount => Nat.lt_of_lt_of_le hcount h.count_le)
    fun hstrict hcount => (h.same hstrict).1 ▸ hcount

theorem checkBufferAccess (h : e.Lenient strict e') (buffer : BufferId) (access : BufferAccess) :
    Check strict (e.checkBufferAccess buffer access) (e'.checkBufferAccess buffer access) :=
  .bind (.failIf h.pending_contains.1 fun hstrict hpending =>
    (h.pending_contains.2 hstrict).trans hpending) fun _ _ => h.failIf_announced ..

theorem checkTextureMipAccess (h : e.Lenient strict e') (texture : TextureId) (mip : UInt32)
    (access : TextureAccess) :
    Check strict (checkTextureMipAccess T e texture mip access)
      (CommandEncoder.checkTextureMipAccess T e' texture mip access) :=
  .bind (.refl _) fun _ _ => .bind (.refl _) fun _ _ =>
    .bind (.failIf h.mipPending.1 fun hstrict hpending =>
      (h.mipPending.2 hstrict).trans hpending) fun _ _ => h.failIf_announced ..

theorem checkTextureAccess (h : e.Lenient strict e') (texture : TextureId)
    (access : TextureAccess) :
    Check strict (checkTextureAccess T e texture access)
      (CommandEncoder.checkTextureAccess T e' texture access) :=
  .bind (.refl _) fun _ _ => .forEach fun mip _ => h.checkTextureMipAccess texture mip access

theorem validateTextureTransition (h : e.Lenient strict e') (texture : TextureId) (mip : UInt32)
    (before after : TextureAccess) :
    Check strict (validateTextureTransition T e texture mip before after)
      (CommandEncoder.validateTextureTransition T e' texture mip before after) :=
  .bind (.refl _) fun _ _ => .bind (.refl _) fun _ _ => .bind (.refl _) fun _ _ =>
    .bind (.refl _) fun _ _ =>
      .bind (.failIf (fun hbad => ⟨h.mipPending.1 hbad.1, hbad.2⟩)
        fun hstrict hbad => ⟨(h.mipPending.2 hstrict).trans hbad.1, hbad.2⟩)
        fun _ _ => h.failIf_announced ..

/-- The encoder after dropping announcements. -/
theorem filter_announced (h : e.Lenient strict e') (keep : AnnouncedAccess → Bool) :
    Lenient strict { e with announcedAccesses := e.announcedAccesses.filter keep }
      { e' with announcedAccesses := e'.announcedAccesses.filter keep } where
  passOpen := h.passOpen
  count_le := h.count_le
  pending := h.pending
  announced := List.filter_subset keep h.announced
  same hstrict := ⟨(h.same hstrict).1, (h.same hstrict).2.1, by
    dsimp only
    rw [(h.same hstrict).2.2]⟩

theorem consumeAccesses (h : e.Lenient strict e') (keys : List PendingWrite) :
    (e.consumeAccesses keys).Lenient strict (e'.consumeAccesses keys) := h.filter_announced _

theorem append (h : e.Lenient strict e') (command : Command) :
    (e.append command).Lenient strict (e'.append command) where
  passOpen := h.passOpen
  count_le := Nat.succ_le_succ h.count_le
  pending := h.pending
  announced := h.announced
  same hstrict := ⟨congrArg (· + 1) (h.same hstrict).1, (h.same hstrict).2⟩

theorem setPassOpen (h : e.Lenient strict e') (open' : Bool) :
    Lenient strict { e with passOpen := open' } { e' with passOpen := open' } :=
  ⟨rfl, h.count_le, h.pending, h.announced, h.same⟩

theorem reserveCommand (e e' : CommandEncoder) :
    Check strict (e.reserveCommand grantAll) (e'.reserveCommand grantAll) := by
  have hgranted : ∀ e : CommandEncoder, e.reserveCommand grantAll = .ok () := by
    intro e
    unfold CommandEncoder.reserveCommand
    split <;> rfl
  exact .of_eq ((hgranted e).trans (hgranted e').symm)

theorem push (h : e.Lenient strict e') (command : Command) :
    Follows strict (push grantAll command) (CommandEncoder.push grantAll command) e e'
      (fun _ _ => Lenient strict) := by
  refine .read_bind ?_
  rw [h.passOpen]
  refine .check_bind (.failIf (fun hfull => Nat.le_trans hfull h.count_le)
    fun hstrict hfull => (h.same hstrict).1 ▸ hfull) fun _ _ => ?_
  exact .check_bind (reserveCommand e e') fun _ _ => .update ((h.consumeAccesses _).append command)

theorem pushPassEnd (h : e.Lenient strict e') (command : Command) :
    Follows strict (pushPassEnd grantAll command) (CommandEncoder.pushPassEnd grantAll command) e e'
      (fun _ _ => Lenient strict) :=
  .read_bind (.check_bind (.failIf (fun hfull => Nat.le_trans hfull h.count_le)
    fun hstrict hfull => (h.same hstrict).1 ▸ hfull) fun _ _ =>
      .check_bind (reserveCommand e e') fun _ _ => .update (h.append command))

/-! ### Uploads, copies and blits -/

theorem writeBuffer (h : e.Lenient strict e') (buffer : BufferId) (offset : UInt64)
    (data : ByteSlice) :
    Follows strict (writeBuffer T grantAll buffer offset data)
      (CommandEncoder.writeBuffer T grantAll buffer offset data) e e'
      (fun _ _ => Lenient strict) := by
  refine .read_bind (.check_bind h.ensureOutsidePass fun _ _ => ?_)
  refine .same_bind fun _ _ => .same_bind fun _ _ => .same_bind fun _ _ => .same_bind fun _ _ => ?_
  exact .check_bind (h.checkBufferAccess ..) fun _ _ => h.push _

theorem writeTexture (h : e.Lenient strict e') (texture : TextureId) (write : TextureWrite) :
    Follows strict (writeTexture T grantAll texture write)
      (CommandEncoder.writeTexture T grantAll texture write) e e' (fun _ _ => Lenient strict) := by
  refine .read_bind (.check_bind h.ensureOutsidePass fun _ _ => ?_)
  refine .same_bind fun _ _ => .same_bind fun _ _ => .same_bind fun _ _ => .same_bind fun _ _ => ?_
  refine .same_bind fun _ _ => .same_bind fun _ _ => .same_bind fun _ _ => ?_
  exact .check_bind (h.checkTextureMipAccess ..) fun _ _ => h.push _

theorem blitTextureRegionFlipped (h : e.Lenient strict e') (source : TextureId)
    (sourceMip : UInt32) (sourceRect : PixelRect) (destination : TextureId)
    (destinationMip : UInt32) (destinationRect : PixelRect) (filter : FilterMode)
    (flips : Bool × Bool) :
    Follows strict
      (blitTextureRegionFlipped T grantAll source sourceMip sourceRect destination destinationMip
        destinationRect filter flips)
      (CommandEncoder.blitTextureRegionFlipped T grantAll source sourceMip sourceRect destination
        destinationMip destinationRect filter flips) e e' (fun _ _ => Lenient strict) := by
  refine .read_bind (.check_bind h.ensureOutsidePass fun _ _ => ?_)
  refine .same_bind fun _ _ => .same_bind fun _ _ => .same_bind fun _ _ => .same_bind fun _ _ => ?_
  refine .same_bind fun _ _ => .same_bind fun _ _ => .same_bind fun _ _ => .same_bind fun _ _ => ?_
  refine .same_bind fun _ _ => .same_bind fun _ _ => .same_bind fun _ _ => ?_
  refine .check_bind (h.checkTextureMipAccess ..) fun _ _ => ?_
  exact .check_bind (h.checkTextureMipAccess ..) fun _ _ => h.push _

theorem copyTextureToTexture (h : e.Lenient strict e') (source : TextureId)
    (sourceRect : PixelRect) (destination : TextureId) (destinationRect : PixelRect) :
    Follows strict (copyTextureToTexture T grantAll source sourceRect destination destinationRect)
      (CommandEncoder.copyTextureToTexture T grantAll source sourceRect destination destinationRect)
      e e' (fun _ _ => Lenient strict) := by
  refine .read_bind (.check_bind h.ensureOutsidePass fun _ _ => ?_)
  refine .same_bind fun _ _ => .same_bind fun _ _ => .same_bind fun _ _ => .same_bind fun _ _ => ?_
  refine .same_bind fun _ _ => .same_bind fun _ _ => .same_bind fun _ _ => .same_bind fun _ _ => ?_
  refine .check_bind (h.checkTextureMipAccess ..) fun _ _ => ?_
  exact .check_bind (h.checkTextureMipAccess ..) fun _ _ => h.push _

theorem copyBufferToBuffer (h : e.Lenient strict e') (source : BufferId) (sourceOffset : UInt64)
    (destination : BufferId) (destinationOffset size : UInt64) :
    Follows strict
      (copyBufferToBuffer T grantAll source sourceOffset destination destinationOffset size)
      (CommandEncoder.copyBufferToBuffer T grantAll source sourceOffset destination
        destinationOffset size) e e' (fun _ _ => Lenient strict) := by
  refine .read_bind (.check_bind h.ensureOutsidePass fun _ _ => ?_)
  refine .same_bind fun _ _ => .same_bind fun _ _ => .same_bind fun _ _ => .same_bind fun _ _ => ?_
  refine .same_bind fun _ _ => .same_bind fun _ _ => .same_bind fun _ _ => .same_bind fun _ _ => ?_
  refine .check_bind (h.checkBufferAccess ..) fun _ _ => ?_
  exact .check_bind (h.checkBufferAccess ..) fun _ _ => h.push _

/-! ### Barriers -/

theorem transitions (h : e.Lenient strict e') (barrier : ResourceBarrier) :
    Check strict (e.transitions T grantAll barrier) (e'.transitions T grantAll barrier) := by
  cases barrier with
  | global => exact .refl _
  | buffer id before after =>
    refine .bind (.refl _) fun _ _ => .bind (.refl _) fun _ _ => .bind (.refl _) fun _ _ => ?_
    refine .bind (.failIf (fun hbad => ⟨h.pending_contains.1 hbad.1, hbad.2⟩)
      fun hstrict hbad => ⟨(h.pending_contains.2 hstrict).trans hbad.1, hbad.2⟩) fun _ _ => ?_
    exact .bind (h.failIf_announced ..) fun _ _ => .refl _
  | texture id before after =>
    refine .bind (.refl _) fun _ _ => .bind (.refl _) fun _ _ => ?_
    exact .bind (.forEach fun mip _ => h.validateTextureTransition id mip before after)
      fun _ _ => .refl _
  | textureMip id mip before after =>
    exact .bind (h.validateTextureTransition id mip before after) fun _ _ => .refl _

/-- The encoder after dropping pending writes and announcements and announcing an access. -/
theorem announced_append (h : e.Lenient strict e') (keepPending : PendingWrite → Bool)
    (keep : AnnouncedAccess → Bool) (access : AnnouncedAccess) :
    Lenient strict
      { e with
        pendingWrites := e.pendingWrites.filter keepPending
        announcedAccesses := e.announcedAccesses.filter keep ++ [access] }
      { e' with
        pendingWrites := e'.pendingWrites.filter keepPending
        announcedAccesses := e'.announcedAccesses.filter keep ++ [access] } where
  passOpen := h.passOpen
  count_le := h.count_le
  pending := List.filter_subset keepPending h.pending
  announced := List.append_subset.mpr
    ⟨List.subset_append_of_subset_left _ (List.filter_subset keep h.announced),
      List.subset_append_right ..⟩
  same hstrict := by
    obtain ⟨hcount, hpending, hannounced⟩ := h.same hstrict
    dsimp only
    rw [hpending, hannounced]
    exact ⟨hcount, rfl, rfl⟩

theorem announce (h : e.Lenient strict e') (access : AnnouncedAccess) :
    (e.announce access).Lenient strict (e'.announce access) := by
  cases access with
  | buffer id access => exact h.announced_append _ _ _
  | texture id mip access => exact h.announced_append _ _ _

theorem foldl_announce (h : e.Lenient strict e') (announced : List AnnouncedAccess) :
    (announced.foldl CommandEncoder.announce e).Lenient strict
      (announced.foldl CommandEncoder.announce e') := by
  induction announced generalizing e e' with
  | nil => exact h
  | cons access rest ih => exact ih (h.announce access)

theorem resourceBarrier (h : e.Lenient strict e') (barrier : ResourceBarrier) :
    Follows strict (resourceBarrier T grantAll barrier)
      (CommandEncoder.resourceBarrier T grantAll barrier) e e' (fun _ _ => Lenient strict) := by
  refine .read_bind (.check_bind h.ensureOutsidePass fun _ _ => ?_)
  split
  · refine .bind (h.push _) fun _ _ s s' hs => .update ?_
    exact ⟨hs.passOpen, hs.count_le, List.Subset.refl [], List.Subset.refl [],
      fun hstrict => ⟨(hs.same hstrict).1, rfl, rfl⟩⟩
  · refine .check_bind (h.transitions barrier) fun announced _ => .same_bind fun _ _ => ?_
    exact .bind (h.push _) fun _ _ _ _ hs => .update (hs.foldl_announce announced)

end CommandEncoder.Lenient

/-! ### Bound groups -/

namespace CommandEncoder.Lenient

open CommandEncoder Follows

variable {strict : Prop} {e e' : CommandEncoder} {T : ResourceTable}

theorem checkBinding (h : e.Lenient strict e') (attachments : List TextureId)
    (vertices : List (Option (BufferId × UInt64))) (index : Option BufferId)
    (resource : BindingResource) (ty : BindingType) :
    Check strict (checkBinding T e attachments vertices index resource ty)
      (CommandEncoder.checkBinding T e' attachments vertices index resource ty) := by
  cases resource with
  | buffer buffer offset size =>
    exact .bind (.refl _) fun _ _ => .bind (h.checkBufferAccess ..) fun _ _ => .refl _
  | textureView texture view =>
    exact .bind (.refl _) fun _ _ =>
      .bind (.forEach fun mip _ => h.checkTextureMipAccess ..) fun _ _ => .refl _
  | texture texture =>
    exact .bind (.refl _) fun _ _ => .bind (h.checkTextureAccess ..) fun _ _ => .refl _
  | sampler sampler => exact .refl _

theorem useBinding (h : e.Lenient strict e') (attachments : List TextureId)
    (vertices : List (Option (BufferId × UInt64))) (index : Option BufferId)
    (uses : List (BindingResource × Bool)) (binding : BindingResource × BindingType) :
    Check strict (useBinding T grantAll e attachments vertices index uses binding)
      (CommandEncoder.useBinding T grantAll e' attachments vertices index uses binding) :=
  .bind (h.checkBinding ..) fun _ _ => .refl _

theorem useGroup (h : e.Lenient strict e')
    (groups : Vector (Option BindGroupId) MAX_BIND_GROUPS) (attachments : List TextureId)
    (vertices : List (Option (BufferId × UInt64))) (index : Option BufferId)
    (uses : List (BindingResource × Bool)) (set : BindGroupLayoutDesc × Nat) :
    Check strict (useGroup T grantAll e groups attachments vertices index uses set)
      (CommandEncoder.useGroup T grantAll e' groups attachments vertices index uses set) := by
  unfold CommandEncoder.useGroup
  split
  · exact .refl _
  · refine .bind (.refl _) fun _ _ => .bind (.refl _) fun _ _ => .bind (.refl _) fun _ _ => ?_
    exact .foldlM (fun uses binding => h.useBinding attachments vertices index uses binding) uses

theorem validateGroups (h : e.Lenient strict e') (layout : PipelineLayoutDesc)
    (groups : Vector (Option BindGroupId) MAX_BIND_GROUPS) (attachments : List TextureId)
    (vertices : List (Option (BufferId × UInt64))) (index : Option BufferId) :
    Check strict (validateGroups T grantAll e layout groups attachments vertices index)
      (CommandEncoder.validateGroups T grantAll e' layout groups attachments vertices index) :=
  .bind (.foldlM (fun uses set => h.useGroup groups attachments vertices index uses set) [])
    fun _ _ => .refl _

theorem recordWithWrites (h : e.Lenient strict e') (command : Command)
    (accesses : GroupAccesses) :
    Follows strict (recordWithWrites grantAll command accesses)
      (CommandEncoder.recordWithWrites grantAll command accesses) e e'
      (fun _ _ => Lenient strict) := by
  refine .same_bind fun _ _ => .bind (h.push command) fun _ _ s s' hs => .update ?_
  obtain ⟨hopen, hcount, hpending, hannounced, hsame⟩ := hs.consumeAccesses accesses.used
  refine ⟨hopen, hcount, ?_, hannounced, fun hstrict => ?_⟩
  · exact List.append_subset.mpr ⟨List.subset_append_of_subset_left _ hpending,
      List.subset_append_right ..⟩
  · obtain ⟨hcount, hpending, hannounced⟩ := hsame hstrict
    exact ⟨hcount, congrArg (· ++ accesses.writes) hpending, hannounced⟩

/-! ### Calls -/

theorem call (h : e.Lenient strict e') (T : ResourceTable) (c : EncoderCall) :
    Follows strict (c.run T grantAll) (c.run T grantAll) e e' (fun _ _ => Lenient strict) := by
  cases c with
  | writeBuffer buffer offset data => exact h.writeBuffer ..
  | writeTexture texture write => exact h.writeTexture ..
  | blitTexture source sourceMip destination destinationMip filter =>
    refine .same_bind fun _ _ => .same_bind fun _ _ => .same_bind fun _ _ => ?_
    refine .same_bind fun _ _ => .same_bind fun _ _ => .same_bind fun _ _ => ?_
    exact h.blitTextureRegionFlipped ..
  | blitTextureRegion => exact h.blitTextureRegionFlipped ..
  | blitTextureRegionFlipped => exact h.blitTextureRegionFlipped ..
  | copyTextureToTexture => exact h.copyTextureToTexture ..
  | copyBufferToBuffer => exact h.copyBufferToBuffer ..
  | resourceBarrier barrier => exact h.resourceBarrier barrier

end CommandEncoder.Lenient

/-! ## Render passes -/

/-- The same pass on a more lenient encoder. -/
def RenderPassEncoder.Lenient (strict : Prop) (p p' : RenderPassEncoder) : Prop :=
  ∃ e', p' = { p with encoder := e' } ∧ p.encoder.Lenient strict e'

namespace RenderPassEncoder.Lenient

open RenderPassEncoder Follows

variable {strict : Prop} {p p' : RenderPassEncoder} {T : ResourceTable}

theorem encoder (h : p.Lenient strict p') : p.encoder.Lenient strict p'.encoder := by
  obtain ⟨e', rfl, he⟩ := h
  exact he

theorem push (h : p.Lenient strict p') (command : Command) :
    Follows strict (onEncoder (CommandEncoder.push grantAll command))
      (onEncoder (CommandEncoder.push grantAll command)) p p' (fun _ _ => Lenient strict) := by
  obtain ⟨e', rfl, he⟩ := h
  exact .zoom (he.push command) fun _ _ _ e' he' => ⟨e', rfl, he'⟩

/-- Caching a state reads nothing of the encoder. -/
theorem setState (h : p.Lenient strict p') {cached : RenderPassEncoder → Bool}
    {command : Command} {store : RenderPassEncoder → RenderPassEncoder}
    (hcached : ∀ p e, cached { p with encoder := e } = cached p)
    (hstore : ∀ p e, store { p with encoder := e } = { store p with encoder := e })
    (hkeeps : ∀ p, (store p).encoder = p.encoder) :
    Follows strict (setState grantAll cached command store)
      (RenderPassEncoder.setState grantAll cached command store) p p'
      (fun _ _ => Lenient strict) := by
  have hsame : cached p' = cached p := by
    obtain ⟨e', rfl, -⟩ := h
    exact hcached p e'
  refine .read_bind ?_
  rw [hsame]
  split
  · exact .pure h
  · refine .bind (h.push command) fun _ _ q q' hq => .update ?_
    obtain ⟨e', rfl, he⟩ := hq
    exact ⟨e', hstore q e', (hkeeps q).symm ▸ he⟩

theorem setVertexBuffer (h : p.Lenient strict p') (buffer : BufferId) (offset : UInt64) :
    Follows strict (setVertexBuffer T grantAll buffer offset)
      (RenderPassEncoder.setVertexBuffer T grantAll buffer offset) p p'
      (fun _ _ => Lenient strict) :=
  .same_bind fun _ _ => h.setState (fun _ _ => rfl) (fun _ _ => rfl) fun _ => rfl

/-! ### Draws -/

theorem validateDraw (h : p.Lenient strict p') (count : UInt32) :
    Check strict (p.validateDraw T count) (p'.validateDraw T count) := by
  obtain ⟨e', rfl, he⟩ := h
  refine .bind (.refl _) fun _ _ => .bind (.refl _) fun _ _ => .bind (.refl _) fun _ _ => ?_
  refine .bind (.refl _) fun _ _ => .bind (.refl _) fun _ _ => ?_
  exact .bind (.forEach fun texture _ => he.checkTextureAccess texture .sampled) fun _ _ => .refl _

theorem recordFixed (h : p.Lenient strict p') (command : Command) (keys : List PendingWrite) :
    Follows strict (recordFixed grantAll command keys)
      (RenderPassEncoder.recordFixed grantAll command keys) p p' (fun _ _ => Lenient strict) := by
  refine .same_bind fun _ _ => .bind (h.push command) fun _ _ q q' hq => .update ?_
  obtain ⟨e', rfl, he⟩ := hq
  exact ⟨_, rfl, he.consumeAccesses keys⟩

theorem drawFixed (h : p.Lenient strict p') (vertexCount firstVertex : UInt32) :
    Follows strict (drawFixed T grantAll vertexCount firstVertex)
      (RenderPassEncoder.drawFixed T grantAll vertexCount firstVertex) p p'
      (fun _ _ => Lenient strict) := by
  refine .read_bind (.check_bind (h.validateDraw vertexCount) fun _ _ => ?_)
  obtain ⟨e', rfl, he⟩ := h
  refine .same_bind fun _ _ => .same_bind fun _ _ => .same_bind fun _ _ => .same_bind fun _ _ => ?_
  refine .same_bind fun _ _ => .check_bind (he.checkBufferAccess ..) fun _ _ => ?_
  refine .same_bind fun _ _ => .same_bind fun _ _ => .same_bind fun _ _ => .same_bind fun _ _ => ?_
  exact recordFixed ⟨e', rfl, he⟩ _ _

theorem drawIndexedFixed (h : p.Lenient strict p') (indexCount firstIndex : UInt32)
    (baseVertex : Int32) :
    Follows strict (drawIndexedFixed T grantAll indexCount firstIndex baseVertex)
      (RenderPassEncoder.drawIndexedFixed T grantAll indexCount firstIndex baseVertex) p p'
      (fun _ _ => Lenient strict) := by
  refine .read_bind (.check_bind (h.validateDraw indexCount) fun _ _ => ?_)
  obtain ⟨e', rfl, he⟩ := h
  refine .same_bind fun _ _ => .same_bind fun _ _ => .same_bind fun _ _ => .same_bind fun _ _ => ?_
  refine .same_bind fun _ _ => .check_bind (he.checkBufferAccess ..) fun _ _ => ?_
  refine .same_bind fun _ _ => .same_bind fun _ _ => .same_bind fun _ _ => .same_bind fun _ _ => ?_
  refine .check_bind (he.checkBufferAccess ..) fun _ _ => ?_
  refine .same_bind fun _ _ => .same_bind fun _ _ => .same_bind fun _ _ => ?_
  exact recordFixed ⟨e', rfl, he⟩ _ _

theorem checkVertexSlot (h : p.Lenient strict p') (lastVertex instances firstInstance : UInt32)
    (slot : VertexBufferLayout × Nat) :
    Check strict (p.checkVertexSlot T lastVertex instances firstInstance slot)
      (p'.checkVertexSlot T lastVertex instances firstInstance slot) := by
  obtain ⟨e', rfl, he⟩ := h
  refine .bind (.refl _) fun _ _ => .bind (.refl _) fun _ _ => ?_
  exact .bind (he.checkBufferAccess ..) fun _ _ => .refl _

theorem programmableWrites (h : p.Lenient strict p') (desc : ProgrammableRenderPipelineDesc)
    (indexed : Bool) :
    Check strict (programmableWrites T grantAll p desc indexed)
      (RenderPassEncoder.programmableWrites T grantAll p' desc indexed) := by
  obtain ⟨e', rfl, he⟩ := h
  exact he.validateGroups ..

theorem recordProgrammable (h : p.Lenient strict p') (command : Command)
    (accesses : GroupAccesses) :
    Follows strict (recordProgrammable grantAll command accesses)
      (RenderPassEncoder.recordProgrammable grantAll command accesses) p p'
      (fun _ _ => Lenient strict) := by
  obtain ⟨e', rfl, he⟩ := h
  refine .bind (.zoom (he.recordWithWrites command accesses) fun _ _ _ e' he' => ⟨e', rfl, he'⟩)
    fun _ _ q q' (hq : Lenient strict q q') => .update ?_
  obtain ⟨e', rfl, he⟩ := hq
  exact ⟨e', rfl, he⟩

theorem drawProgrammable (h : p.Lenient strict p') (count first instances firstInstance : UInt32) :
    Follows strict (drawProgrammable T grantAll count first instances firstInstance)
      (RenderPassEncoder.drawProgrammable T grantAll count first instances firstInstance) p p'
      (fun _ _ => Lenient strict) := by
  refine .read_bind (.same_bind fun _ _ => .same_bind fun _ _ => ?_)
  refine .check_bind (.of_eq ?_) fun desc _ => .same_bind fun _ _ => .same_bind fun _ _ => ?_
  · obtain ⟨e', rfl, -⟩ := h
    rfl
  refine .check_bind (.forEach fun slot _ => h.checkVertexSlot ..) fun _ _ => ?_
  refine .check_bind (h.programmableWrites desc false) fun accesses _ => ?_
  refine .check_bind (.of_eq ?_) fun _ _ => h.recordProgrammable _ accesses
  obtain ⟨e', rfl, -⟩ := h
  rfl

theorem drawIndexedProgrammable (h : p.Lenient strict p') (count first : UInt32)
    (baseVertex : Int32) (instances firstInstance : UInt32) :
    Follows strict (drawIndexedProgrammable T grantAll count first baseVertex instances firstInstance)
      (RenderPassEncoder.drawIndexedProgrammable T grantAll count first baseVertex instances
        firstInstance) p p' (fun _ _ => Lenient strict) := by
  refine .read_bind (.same_bind fun _ _ => .same_bind fun _ _ => ?_)
  refine .check_bind (.of_eq ?_) fun desc _ => .same_bind fun _ _ => ?_
  · obtain ⟨e', rfl, -⟩ := h
    rfl
  refine .check_bind (.forEach fun slot _ => h.checkVertexSlot ..) fun _ _ => ?_
  have hindex : p'.indexBuffer = p.indexBuffer := by
    obtain ⟨e', rfl, -⟩ := h
    rfl
  rw [hindex]
  refine .same_bind fun _ _ => .same_bind fun _ _ => ?_
  refine .check_bind (h.encoder.checkBufferAccess ..) fun _ _ => ?_
  refine .same_bind fun _ _ => .same_bind fun _ _ => ?_
  refine .check_bind (h.programmableWrites desc true) fun accesses _ => ?_
  refine .check_bind (.of_eq ?_) fun _ _ => h.recordProgrammable _ accesses
  obtain ⟨e', rfl, -⟩ := h
  rfl

/-! ### Calls -/

theorem call (h : p.Lenient strict p') (T : ResourceTable) (c : RenderCall) :
    Follows strict (c.run T grantAll) (c.run T grantAll) p p' (fun _ _ => Lenient strict) := by
  have hfields : p'.colorTargets = p.colorTargets ∧ p'.depthReadOnly = p.depthReadOnly ∧
      p'.targetFormat = p.targetFormat ∧ p'.depthFormat = p.depthFormat ∧ p'.target = p.target ∧
      p'.area = p.area ∧ p'.colorFormats = p.colorFormats ∧
      p'.programmablePipeline = p.programmablePipeline := by
    obtain ⟨e', rfl, -⟩ := h
    exact ⟨rfl, rfl, rfl, rfl, rfl, rfl, rfl, rfl⟩
  obtain ⟨hcolors, hreadOnly, htarget, hdepth, htargetId, harea, hformats, hprogram⟩ := hfields
  cases c with
  | setPipeline pipeline =>
    refine .read_bind (.same_bind fun desc _ => ?_)
    rw [hcolors, hreadOnly, htarget, hdepth]
    exact .same_bind fun _ _ => h.setState (fun _ _ => rfl) (fun _ _ => rfl) fun _ => rfl
  | setVertexBuffer buffer offset => exact h.setVertexBuffer buffer offset
  | setVertexBufferSlot slot buffer offset =>
    refine .same_bind fun _ _ => ?_
    split
    · exact h.setVertexBuffer buffer offset
    · exact .same_bind fun _ _ => h.setState (fun _ _ => rfl) (fun _ _ => rfl) fun _ => rfl
  | setIndexBuffer buffer offset format =>
    refine .same_bind fun _ _ => .same_bind fun _ _ => .same_bind fun _ _ => ?_
    exact .same_bind fun _ _ => h.setState (fun _ _ => rfl) (fun _ _ => rfl) fun _ => rfl
  | setTexture texture =>
    refine .read_bind (.same_bind fun _ _ => .same_bind fun _ _ => .same_bind fun _ _ => ?_)
    rw [htargetId]
    refine .same_bind fun _ _ => .same_bind fun _ _ => ?_
    exact h.setState (fun _ _ => rfl) (fun _ _ => rfl) fun _ => rfl
  | setSampler sampler =>
    refine .same_bind fun _ _ => .same_bind fun _ _ => ?_
    exact h.setState (fun _ _ => rfl) (fun _ _ => rfl) fun _ => rfl
  | setDrawIndex index => exact h.push _
  | setUniforms uniforms => exact h.setState (fun _ _ => rfl) (fun _ _ => rfl) fun _ => rfl
  | setScissor scissor =>
    refine .read_bind ?_
    rw [harea]
    exact .same_bind fun _ _ => h.setState (fun _ _ => rfl) (fun _ _ => rfl) fun _ => rfl
  | setViewport viewport =>
    refine .read_bind ?_
    rw [htargetId]
    refine .same_bind fun _ _ => .same_bind fun _ _ => ?_
    exact h.setState (fun _ _ => rfl) (fun _ _ => rfl) fun _ => rfl
  | setPushConstants stages offset data =>
    refine .read_bind ?_
    rw [hprogram]
    exact .same_bind fun _ _ => .same_bind fun _ _ => .same_bind fun _ _ => h.push _
  | setProgrammablePipeline pipeline =>
    refine .read_bind (.same_bind fun desc _ => ?_)
    rw [hformats, hreadOnly, hdepth]
    exact .same_bind fun _ _ => h.setState (fun _ _ => rfl) (fun _ _ => rfl) fun _ => rfl
  | setBindGroup index bindGroup =>
    refine .same_bind fun _ _ => .same_bind fun _ _ => ?_
    exact h.setState (fun _ _ => rfl) (fun _ _ => rfl) fun _ => rfl
  | draw vertexCount firstVertex =>
    refine .read_bind ?_
    rw [hprogram]
    split
    · exact h.drawProgrammable ..
    · exact h.drawFixed ..
  | drawIndexed indexCount firstIndex baseVertex =>
    refine .read_bind ?_
    rw [hprogram]
    split
    · exact h.drawIndexedProgrammable ..
    · exact h.drawIndexedFixed ..
  | drawInstanced count first instances firstInstance => exact h.drawProgrammable ..
  | drawIndexedInstanced count first baseVertex instances firstInstance =>
    exact h.drawIndexedProgrammable ..

end RenderPassEncoder.Lenient

/-! ## Compute passes -/

/-- The same pass on a more lenient encoder. -/
def ComputePassEncoder.Lenient (strict : Prop) (p p' : ComputePassEncoder) : Prop :=
  ∃ e', p' = { p with encoder := e' } ∧ p.encoder.Lenient strict e'

namespace ComputePassEncoder.Lenient

open ComputePassEncoder Follows

variable {strict : Prop} {p p' : ComputePassEncoder} {T : ResourceTable}

theorem push (h : p.Lenient strict p') (command : Command) :
    Follows strict (onEncoder (CommandEncoder.push grantAll command))
      (onEncoder (CommandEncoder.push grantAll command)) p p' (fun _ _ => Lenient strict) := by
  obtain ⟨e', rfl, he⟩ := h
  exact .zoom (he.push command) fun _ _ _ e' he' => ⟨e', rfl, he'⟩

/-- Caching a state reads nothing of the encoder. -/
theorem setState (h : p.Lenient strict p') {cached : ComputePassEncoder → Bool}
    {command : Command} {store : ComputePassEncoder → ComputePassEncoder}
    (hcached : ∀ p e, cached { p with encoder := e } = cached p)
    (hstore : ∀ p e, store { p with encoder := e } = { store p with encoder := e })
    (hkeeps : ∀ p, (store p).encoder = p.encoder) :
    Follows strict (setState grantAll cached command store)
      (ComputePassEncoder.setState grantAll cached command store) p p'
      (fun _ _ => Lenient strict) := by
  have hsame : cached p' = cached p := by
    obtain ⟨e', rfl, -⟩ := h
    exact hcached p e'
  refine .read_bind ?_
  rw [hsame]
  split
  · exact .pure h
  · refine .bind (h.push command) fun _ _ q q' hq => .update ?_
    obtain ⟨e', rfl, he⟩ := hq
    exact ⟨e', hstore q e', (hkeeps q).symm ▸ he⟩

theorem call (h : p.Lenient strict p') (T : ResourceTable) (c : ComputeCall) :
    Follows strict (c.run T grantAll) (c.run T grantAll) p p' (fun _ _ => Lenient strict) := by
  cases c with
  | setPushConstants stages offset data =>
    have hpipeline : p'.pipeline = p.pipeline := by
      obtain ⟨e', rfl, -⟩ := h
      rfl
    refine .read_bind ?_
    rw [hpipeline]
    exact .same_bind fun _ _ => .same_bind fun _ _ => .same_bind fun _ _ => h.push _
  | setPipeline pipeline =>
    exact .same_bind fun _ _ => h.setState (fun _ _ => rfl) (fun _ _ => rfl) fun _ => rfl
  | setBindGroup index bindGroup =>
    refine .same_bind fun _ _ => .same_bind fun _ _ => ?_
    exact h.setState (fun _ _ => rfl) (fun _ _ => rfl) fun _ => rfl
  | dispatch x y z =>
    obtain ⟨e', rfl, he⟩ := h
    refine .read_bind (.same_bind fun _ _ => .same_bind fun _ _ => .same_bind fun desc _ => ?_)
    refine .check_bind (he.validateGroups ..) fun writes _ => ?_
    exact .zoom (he.recordWithWrites _ writes) fun _ _ _ e' he' => ⟨e', rfl, he'⟩

end ComputePassEncoder.Lenient

/-! ## Sessions -/

namespace CommandEncoder.Lenient

open CommandEncoder Follows

variable {strict : Prop} {e e' : CommandEncoder} {T : ResourceTable}

theorem beginRenderPass (h : e.Lenient strict e') (T : ResourceTable) (desc : RenderPassDesc) :
    Follows strict (beginRenderPass T grantAll desc)
      (CommandEncoder.beginRenderPass T grantAll desc) e e'
      (fun p p' _ _ => p.Lenient strict p') := by
  refine .read_bind (.check_bind h.ensureOutsidePass fun _ _ => ?_)
  refine .same_bind fun _ _ => .same_bind fun _ _ => .same_bind fun _ _ => .same_bind fun _ _ => ?_
  refine .check_bind (.forEach fun attachment _ => h.checkTextureMipAccess ..) fun _ _ => ?_
  refine .same_bind fun _ _ => ?_
  refine .check_bind (.forEach fun depth _ => h.checkTextureMipAccess ..) fun _ _ => ?_
  refine .check_bind h.reservePassBegin fun _ _ => .bind (h.push _) fun _ _ s s' hs => ?_
  exact .update_bind (.read_bind (.pure ⟨_, rfl, hs.setPassOpen true⟩))

theorem beginComputePass (h : e.Lenient strict e') :
    Follows strict (beginComputePass grantAll) (CommandEncoder.beginComputePass grantAll) e e'
      (fun p p' _ _ => p.Lenient strict p') := by
  refine .read_bind (.check_bind h.ensureOutsidePass fun _ _ => ?_)
  refine .check_bind h.reservePassBegin fun _ _ => .bind (h.push _) fun _ _ s s' hs => ?_
  exact .update_bind (.read_bind (.pure ⟨_, rfl, hs.setPassOpen true⟩))

end CommandEncoder.Lenient

/-- The same session on a more lenient encoder. -/
inductive Session.Lenient (strict : Prop) : Session → Session → Prop
  | idle {e e' : CommandEncoder} (h : e.Lenient strict e') : Lenient strict (.idle e) (.idle e')
  | render {p p' : RenderPassEncoder} (h : p.Lenient strict p') :
      Lenient strict (.render p) (.render p')
  | compute {p p' : ComputePassEncoder} (h : p.Lenient strict p') :
      Lenient strict (.compute p) (.compute p')

namespace Session.Lenient

variable {strict : Prop} {s s' : Session} {T : ResourceTable}

theorem encoder (h : s.Lenient strict s') : s.encoder.Lenient strict s'.encoder := by
  cases h with
  | idle h => exact h
  | render h => exact h.encoder
  | compute h =>
    obtain ⟨e', rfl, he⟩ := h
    exact he

/-- Every call that is accepted is accepted by the more lenient session, which stays more
lenient. -/
theorem call (h : s.Lenient strict s') (T : ResourceTable) (c : Call) :
    Follows strict (Session.call T grantAll c) (Session.call T grantAll c) s s'
      (fun _ _ => Session.Lenient strict) := by
  -- A call that the borrows rule out does nothing.
  have hunfit : (Session.call T grantAll c s = (.ok (), s)) →
      (Session.call T grantAll c s' = (.ok (), s')) →
      Follows strict (Session.call T grantAll c) (Session.call T grantAll c) s s'
        (fun _ _ => Session.Lenient strict) := by
    intro hs hs'
    rw [Follows, hs]
    exact ⟨(), s', hs', h⟩
  cases h with
  | @idle e e' h =>
    cases c with
    | encoder c =>
      refine (h.call T c).of_parts (fun _ _ e₁ e₁' hrun hrun' h' => ?_) (fun error e₁ hrun => ?_)
        fun error e₁' hrun' => ?_
      · rw [Follows, Session.call, hrun]
        exact ⟨(), .idle e₁', by rw [Session.call, hrun'], .idle h'⟩
      · exact ⟨.idle e₁, by rw [Session.call, hrun]⟩
      · rw [Session.call, hrun']
    | beginRenderPass desc =>
      refine (h.beginRenderPass T desc).of_parts (fun p p' e₁ e₁' hrun hrun' h' => ?_)
        (fun error e₁ hrun => ?_) fun error e₁' hrun' => ?_
      · rw [Follows, Session.call, hrun]
        exact ⟨(), .render p', by rw [Session.call, hrun'], .render h'⟩
      · exact ⟨.idle e₁, by rw [Session.call, hrun]⟩
      · rw [Session.call, hrun']
    | beginComputePass =>
      refine h.beginComputePass.of_parts (fun p p' e₁ e₁' hrun hrun' h' => ?_)
        (fun error e₁ hrun => ?_) fun error e₁' hrun' => ?_
      · rw [Follows, Session.call, hrun]
        exact ⟨(), .compute p', by rw [Session.call, hrun'], .compute h'⟩
      · exact ⟨.idle e₁, by rw [Session.call, hrun]⟩
      · rw [Session.call, hrun']
    | render | compute | endPass | dropPass => exact hunfit rfl rfl
  | @render p p' h =>
    cases c with
    | render c =>
      refine (h.call T c).of_parts (fun _ _ p₁ p₁' hrun hrun' h' => ?_) (fun error p₁ hrun => ?_)
        fun error p₁' hrun' => ?_
      · rw [Follows, Session.call, hrun]
        exact ⟨(), .render p₁', by rw [Session.call, hrun'], .render h'⟩
      · exact ⟨.render p₁, by rw [Session.call, hrun]⟩
      · rw [Session.call, hrun']
    | endPass =>
      refine (h.encoder.pushPassEnd .endRenderPass).of_parts
        (fun _ _ e₁ e₁' hrun hrun' h' => ?_) (fun error e₁ hrun => ?_) fun error e₁' hrun' => ?_
      · rw [Follows, Session.call, Session.finishPass, hrun]
        exact ⟨(), .idle { e₁' with passOpen := false },
          by rw [Session.call, Session.finishPass, hrun'], .idle (h'.setPassOpen false)⟩
      · exact ⟨.idle e₁, by rw [Session.call, Session.finishPass, hrun]⟩
      · rw [Session.call, Session.finishPass, hrun']
    | dropPass => exact ⟨(), _, rfl, .idle h.encoder⟩
    | encoder | beginRenderPass | beginComputePass | compute => exact hunfit rfl rfl
  | @compute p p' h =>
    have hencoder : p.encoder.Lenient strict p'.encoder := by
      obtain ⟨e', rfl, he⟩ := h
      exact he
    cases c with
    | compute c =>
      refine (h.call T c).of_parts (fun _ _ p₁ p₁' hrun hrun' h' => ?_) (fun error p₁ hrun => ?_)
        fun error p₁' hrun' => ?_
      · rw [Follows, Session.call, hrun]
        exact ⟨(), .compute p₁', by rw [Session.call, hrun'], .compute h'⟩
      · exact ⟨.compute p₁, by rw [Session.call, hrun]⟩
      · rw [Session.call, hrun']
    | endPass =>
      refine (hencoder.pushPassEnd .endComputePass).of_parts
        (fun _ _ e₁ e₁' hrun hrun' h' => ?_) (fun error e₁ hrun => ?_) fun error e₁' hrun' => ?_
      · rw [Follows, Session.call, Session.finishPass, hrun]
        exact ⟨(), .idle { e₁' with passOpen := false },
          by rw [Session.call, Session.finishPass, hrun'], .idle (h'.setPassOpen false)⟩
      · exact ⟨.idle e₁, by rw [Session.call, Session.finishPass, hrun]⟩
      · rw [Session.call, Session.finishPass, hrun']
    | dropPass => exact ⟨(), _, rfl, .idle hencoder⟩
    | encoder | beginRenderPass | beginComputePass | render => exact hunfit rfl rfl

end Session.Lenient

end Sgfx
