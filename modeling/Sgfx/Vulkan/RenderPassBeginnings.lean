import Sgfx.Vulkan.RenderPassTargets

/-!
# How render passes begin

A render pass begins with objects or dynamically, and in both cases its description is well formed
and `begin_owned` does the rest.  Where the images of the attachments have the accesses of their
initial layouts, the pass goes by what is known.

## Main Definitions

* `ViewOf`, `AttachedAs`, `ActiveRenderPass.Started`, `ActiveRenderPass.Lowered`
* `PassRuntime.Ready`, `PassRuntime.Arrives`

## Main Results

* `beginOwned_follows`
* `beginRenderPass_ok`, `beginRendering_ok`
-/

namespace Sgfx.Vulkan

/-! ## The beginning -/

section Begin

variable {W : Type} {A : Accesses} {rt rt' : PassRuntime} {pass : RenderPass}
  {views : List ImageViewHandle} {active : ActiveRenderPass}

open ActiveRenderPass

/-- The texture that an attachment is rendered to, and the level that it stands for. -/
inductive AttachedAs (rt : PassRuntime) (pass : RenderPass) (i : Nat) (view : ImageView)
    (image : Image) : Option (TextureId × UInt32) → TextureId → Prop
  | whole (level : view.desc.baseMipLevel = 0) : AttachedAs rt pass i view image none image.id
  | mip {extent : Extent2D} {s : Subpass} {target : TextureId}
      (level : view.desc.baseMipLevel ≠ 0)
      (sized : image.mipExtent view.desc.baseMipLevel = .ok extent)
      (named : rt.resources.mipRenderTargets (image.format, extent.width, extent.height, i) =
        some target)
      (only : pass.subpasses = [s]) (coloured : i ∈ s.colors) :
      AttachedAs rt pass i view image (some (image.id, view.desc.baseMipLevel)) target

/-- The attachment is the one of a view. -/
structure ViewOf (rt : PassRuntime) (views : List ImageViewHandle) (i : Nat) (view : ImageView)
    (image : Image) : Prop where
  viewed : ∃ handle, views[i]? = some handle ∧ rt.resources.views handle = some view
  imaged : rt.resources.images view.image = some image

/-- The views are of different images. -/
def PassResources.Distinct (resources : PassResources) (views : List ImageViewHandle) : Prop :=
  ∀ (i j : Nat) handle handle' view view', views[i]? = some handle → views[j]? = some handle' →
    resources.views handle = some view → resources.views handle' = some view' →
    view.image = view'.image → i = j

/-- What `begin_owned` starts a pass with. -/
structure ActiveRenderPass.Started (rt : PassRuntime) (pass : RenderPass)
    (views : List ImageViewHandle) (active : ActiveRenderPass) : Prop where
  pass_eq : active.pass = pass
  views_eq : active.views = views
  subpass_eq : active.subpass = 0
  accesses : ∀ (i : Nat) before, active.accesses[i]? = some before → before = none
  attached : ∀ (i : Nat) mip, active.mipTargets[i]? = some mip → ∃ view image t,
    ViewOf rt views i view image ∧ active.texture i = .ok t ∧ AttachedAs rt pass i view image mip t
  targets : ∀ i t, active.texture i = .ok t → ∃ mip, active.mipTargets[i]? = some mip
  bound : ∀ (i : Nat) handle, views[i]? = some handle → ∃ mip, active.mipTargets[i]? = some mip
  discarded : ∀ t, active.discardedColor = some t →
    ∃ size, rt.resources.depthClearColors size = some t

theorem ViewOf.same (distinct : rt.resources.Distinct views) (sound : rt.Sound) {i j : Nat}
    {view view' : ImageView} {image image' : Image} (first : ViewOf rt views i view image)
    (second : ViewOf rt views j view' image') (same : image.id = image'.id) : i = j := by
  obtain ⟨handle, found, viewed⟩ := first.viewed
  obtain ⟨handle', found', viewed'⟩ := second.viewed
  exact distinct i j handle handle' view view' found found' viewed viewed'
    (sound.images_inj _ _ _ _ first.imaged second.imaged same)

namespace ActiveRenderPass.Started

variable {i j : Nat} {t : TextureId}

theorem texture_inj (started : active.Started rt pass views) (sound : rt.Sound)
    (distinct : rt.resources.Distinct views) (first : active.texture i = .ok t)
    (second : active.texture j = .ok t) : i = j := by
  obtain ⟨mip, found⟩ := started.targets i t first
  obtain ⟨mip', found'⟩ := started.targets j t second
  obtain ⟨view, image, u, viewOf, named, attached⟩ := started.attached i mip found
  obtain ⟨view', image', u', viewOf', named', attached'⟩ := started.attached j mip' found'
  rw [first] at named
  rw [second] at named'
  cases named
  generalize same : t = t' at attached'
  rw [same] at named'
  cases named'
  cases attached with
  | whole level =>
    cases attached' with
    | whole level' => exact viewOf.same distinct sound viewOf' same
    | mip level' _ key => exact absurd same ((sound.mips _ _ key).2 _ _ viewOf.imaged)
  | mip level _ key =>
    cases attached' with
    | whole level' => exact absurd same.symm ((sound.mips _ _ key).2 _ _ viewOf'.imaged)
    | mip level' _ key' =>
      rw [same] at key
      exact congrArg (fun key : MipTargetKey => key.2.2.2) (sound.mips_inj _ _ _ key key')

theorem texture_ne_discarded (started : active.Started rt pass views) (sound : rt.Sound)
    (discarded : active.discardedColor = some t) : active.texture i ≠ .ok t := by
  intro named
  obtain ⟨size, kept⟩ := started.discarded t discarded
  obtain ⟨mip, found⟩ := started.targets i t named
  obtain ⟨view, image, u, viewOf, named', attached⟩ := started.attached i mip found
  rw [named] at named'
  cases named'
  cases attached with
  | whole level => exact (sound.discarded size _ kept).2.1 _ _ viewOf.imaged rfl
  | mip level _ key => exact (sound.discarded size _ kept).2.2 _ key

/-- A level is of an image, whose texture is no attachment's. -/
theorem original (started : active.Started rt pass views) {level : UInt32}
    (found : active.mipTargets[i]? = some (some (t, level))) :
    ∃ view image target, ViewOf rt views i view image ∧ active.texture i = .ok target ∧
      image.id = t ∧ view.desc.baseMipLevel ≠ 0 ∧
      AttachedAs rt pass i view image (some (t, level)) target := by
  obtain ⟨view, image, target, viewOf, named, attached⟩ := started.attached i _ found
  refine ⟨view, image, target, viewOf, named, ?_⟩
  generalize same : some (t, level) = mip at attached
  cases attached with
  | whole => cases same
  | mip other sized key only coloured =>
    cases same
    exact ⟨rfl, other, .mip other sized key only coloured⟩

theorem apart (started : active.Started rt pass views) (sound : rt.Sound)
    (distinct : rt.resources.Distinct views) : active.Apart where
  texture i j t first second := started.texture_inj sound distinct first second
  discarded t discarded i := started.texture_ne_discarded sound discarded
  original i t level found := by
    obtain ⟨view, image, target, viewOf, named, rfl, other, attached⟩ := started.original found
    refine ⟨fun j named' => ?_, fun discarded => ?_⟩
    · obtain ⟨mip, found'⟩ := started.targets j _ named'
      obtain ⟨view', image', u, viewOf', same, attached'⟩ := started.attached j mip found'
      rw [named'] at same
      generalize equal : image.id = id at same
      cases same
      cases attached' with
      | whole level' =>
        obtain rfl := viewOf.same distinct sound viewOf' equal
        rw [found] at found'
        cases found'
      | mip level' _ key => exact (sound.mips _ _ key).2 _ _ viewOf.imaged equal
    · obtain ⟨size, kept⟩ := started.discarded _ discarded
      exact (sound.discarded size _ kept).2.1 _ _ viewOf.imaged rfl
  originals i j t level level' found found' := by
    obtain ⟨view, image, target, viewOf, -, same, -⟩ := started.original found
    obtain ⟨view', image', target', viewOf', -, same', -⟩ := started.original found'
    exact viewOf.same distinct sound viewOf' (same.trans same'.symm)

theorem placed (started : active.Started rt pass views) (sound : rt.Sound)
    (distinct : rt.resources.Distinct views)
    (fits : ∀ s ∈ pass.subpasses, s.Fits pass.attachments) :
    active.Placed rt.resources active where
  pass_eq := rfl
  images_eq := rfl
  mips_eq := rfl
  fits := by rwa [started.pass_eq]
  apart := started.apart sound distinct
  mips i mip found := by
    obtain ⟨t, level⟩ := mip
    obtain ⟨view, image, target, -, -, -, -, attached⟩ := started.original found
    rw [started.pass_eq]
    cases attached with
    | mip _ _ _ only coloured => exact ⟨_, only, coloured⟩
  bound i handle view image found viewed imaged plain := by
    rw [started.views_eq] at found
    obtain ⟨mip, target⟩ := started.bound i handle found
    obtain ⟨view', image', t, viewOf, named, attached⟩ := started.attached i mip target
    obtain ⟨handle', found', viewed'⟩ := viewOf.viewed
    rw [found] at found'
    cases found'
    rw [viewed] at viewed'
    cases viewed'
    have same := viewOf.imaged
    rw [imaged] at same
    cases same
    cases attached with
    | whole => exact named
    | mip => exact absurd target (plain _)

end ActiveRenderPass.Started

/-- What is known of the private textures between render passes. -/
structure PassRuntime.Ready (rt : PassRuntime) (A : Accesses) : Prop where
  mips : ∀ key id, rt.resources.mipRenderTargets key = some id → A.Admits id .copySource
  discarded : ∀ size id, rt.resources.depthClearColors size = some id →
    A.Admits id .renderAttachment
  fresh : ∀ id, ¬ rt.table.Handed id → A id = none

theorem PassRuntime.Ready.grows (ready : rt.Ready A) (grows : rt.Grows rt') : rt'.Ready A where
  mips key id h := (grows.newMips key id h).elim (ready.mips key id)
    fun fresh => .inl (ready.fresh id fresh)
  discarded size id h := (grows.newDiscarded size id h).elim (ready.discarded size id)
    fun fresh => .inl (ready.fresh id fresh)
  fresh id fresh := ready.fresh id fun issued => fresh (grows.handed id issued)

/-- The images of the attachments have the accesses of their initial layouts.  An image whose
initial layout names none has an access that is not known. -/
structure PassRuntime.Arrives (rt : PassRuntime) (pass : RenderPass) (views : List ImageViewHandle)
    (A : Accesses) : Prop where
  whole : ∀ (i : Nat) view image a, ViewOf rt views i view image →
    pass.attachments[i]? = some a → view.desc.baseMipLevel = 0 →
    A image.id = none ∨ A image.id = (textureAccess a.initialLayout).toOption
  level : ∀ (i : Nat) view image a access, ViewOf rt views i view image →
    pass.attachments[i]? = some a → view.desc.baseMipLevel ≠ 0 →
    attachmentAccess a.initialLayout = .ok access → A.Admits image.id access

/-- A pass begins with what is known once its private textures are filled. -/
theorem ActiveRenderPass.Started.tracks (started : active.Started rt pass views)
    (ready : ∀ t, active.discardedColor = some t → A.Admits t .renderAttachment)
    (arrives : rt.Arrives pass views A)
    (filled : ∀ (i : Nat) mip t, active.mipTargets[i]? = some (some mip) →
      active.texture i = .ok t → A.Admits t .renderAttachment) : active.Tracks A where
  known i before t accessed named := by
    obtain ⟨known, inside, accessed⟩ := except_bind_eq_ok.mp accessed
    rw [orPanic_eq_ok] at inside
    obtain rfl := started.accesses i known inside
    obtain ⟨mip, found, accessed⟩ := except_bind_eq_ok.mp accessed
    rw [orPanic_eq_ok] at found
    cases mip with
    | some mip =>
      cases accessed
      exact (filled i mip t found named).imp_right fun h => .inr ⟨rfl, ⟨mip, found⟩, h⟩
    | none =>
      obtain ⟨a, attachment, accessed⟩ := except_bind_eq_ok.mp accessed
      rw [orPanic_eq_ok, started.pass_eq] at attachment
      cases accessed
      obtain ⟨view, image, u, viewOf, named', attached⟩ := started.attached i none found
      rw [named] at named'
      cases named'
      cases attached with
      | whole level =>
        exact (arrives.whole i view image a viewOf attachment level).imp_right .inl
  discarded := ready
  original i t level a access found attachment initial := by
    obtain ⟨view, image, target, viewOf, -, rfl, other, -⟩ := started.original found
    rw [started.pass_eq] at attachment
    exact arrives.level i view image a access viewOf attachment other initial

theorem MipEntries.length_eq {area : PixelRect} {i : Nat} {entries : List MipEntry}
    {commands : List (PassOp W)} (h : MipEntries rt pass area i views entries commands) :
    entries.length = views.length := by
  induction h with
  | nil => rfl
  | cons _ _ _ ih => exact congrArg (· + 1) ih

theorem MipEntries.get {area : PixelRect} {i : Nat} {entries : List MipEntry}
    {commands : List (PassOp W)} (h : MipEntries rt pass area i views entries commands) {j : Nat}
    {entry : MipEntry} (found : entries[j]? = some entry) :
    ∃ handle view, ∃ recorded : List (PassOp W), views[j]? = some handle ∧
      rt.resources.views handle = some view ∧ entry.Of rt pass area (i + j) view recorded := by
  induction h generalizing j with
  | nil => cases found
  | cons viewed first rest ih =>
    cases j with
    | zero =>
      cases found
      exact ⟨_, _, _, rfl, viewed, first⟩
    | succ j =>
      obtain ⟨handle, view, recorded, here, viewed', entry'⟩ := ih found
      rw [Nat.add_assoc, Nat.add_comm 1 j] at entry'
      exact ⟨handle, view, recorded, here, viewed', entry'⟩

/-- The attachments that a pass starts with, and the commands that fill its private textures. -/
structure ActiveRenderPass.Lowered (rt : PassRuntime) (pass : RenderPass)
    (views : List ImageViewHandle) (area : PixelRect) (entries : List MipEntry)
    (commands : List (PassOp W)) (active : ActiveRenderPass) : Prop where
  started : active.Started rt pass views
  run : MipEntries rt pass area 0 views entries commands
  mips_eq : active.mipTargets = entries.map Prod.fst
  targets : ∀ (i : Nat) e target, entries[i]? = some e → e.2 = some target →
    active.texture i = .ok target

theorem ViewOf.attached (started : active.Started rt pass views) {i : Nat} {view : ImageView}
    {image : Image} (viewOf : ViewOf rt views i view image) :
    ∃ mip t, active.mipTargets[i]? = some mip ∧ active.texture i = .ok t ∧
      AttachedAs rt pass i view image mip t := by
  obtain ⟨handle, here, viewed⟩ := viewOf.viewed
  obtain ⟨mip, found⟩ := started.bound i handle here
  obtain ⟨view', image', t, viewOf', named, attached⟩ := started.attached i mip found
  obtain ⟨handle', here', viewed'⟩ := viewOf'.viewed
  rw [here] at here'
  cases here'
  rw [viewed] at viewed'
  cases viewed'
  have imaged := viewOf.imaged
  rw [viewOf'.imaged] at imaged
  cases imaged
  exact ⟨mip, t, found, named, attached⟩

theorem ViewOf.of_grows {i : Nat} {view : ImageView} {image : Image} (grows : rt.Grows rt')
    (h : ViewOf rt' views i view image) : ViewOf rt views i view image := by
  obtain ⟨handle, found, viewed⟩ := h.viewed
  exact ⟨⟨handle, found, grows.views ▸ viewed⟩, grows.images ▸ h.imaged⟩

theorem PassRuntime.Arrives.grows (arrives : rt.Arrives pass views A) (grows : rt.Grows rt') :
    rt'.Arrives pass views A where
  whole i view image a viewOf := arrives.whole i view image a (viewOf.of_grows grows)
  level i view image a access viewOf := arrives.level i view image a access (viewOf.of_grows grows)

namespace ActiveRenderPass.Lowered

variable {area : PixelRect} {entries : List MipEntry} {commands : List (PassOp W)} {M : Accesses}

theorem mip_eq (lowered : active.Lowered rt pass views area entries commands) {i : Nat}
    {e : MipEntry} (found : entries[i]? = some e) : active.mipTargets[i]? = some e.1 := by
  rw [lowered.mips_eq, List.getElem?_map, found, Option.map_some]

theorem entry (lowered : active.Lowered rt pass views area entries commands) {i : Nat}
    {mip : Option (TextureId × UInt32)} (found : active.mipTargets[i]? = some mip) :
    ∃ e, entries[i]? = some e ∧ e.1 = mip :=
  Option.map_eq_some_iff.mp ((List.getElem?_map ..).symm.trans (lowered.mips_eq ▸ found))

theorem concerns (lowered : active.Lowered rt pass views area entries commands) {i : Nat}
    {e : MipEntry} {t : TextureId} (found : entries[i]? = some e) (inside : t ∈ e.textures) :
    active.Concerns i t := by
  rcases List.mem_append.mp inside with inside | inside
  · obtain ⟨⟨_, level⟩, original, rfl⟩ := List.mem_map.mp inside
    exact .inr ⟨level, (lowered.mip_eq found).trans (congrArg some (Option.mem_toList.mp original))⟩
  · exact .inl (lowered.targets i e t found (Option.mem_toList.mp inside))

theorem own (lowered : active.Lowered rt pass views area entries commands) (apart : active.Apart)
    (original : TextureId) (level : UInt32) (target : TextureId)
    (inside : (some (original, level), some target) ∈ entries) : original ≠ target := by
  obtain ⟨i, found⟩ := List.mem_iff_getElem?.mp inside
  rintro rfl
  exact (apart.original i _ level (lowered.mip_eq found)).1 i (lowered.targets i _ _ found rfl)

/-- Filling changes only what mip levels concern. -/
theorem unmoved (lowered : active.Lowered rt pass views area entries commands)
    (frame : ∀ u, (∀ e ∈ entries, u ∉ e.textures) → M u = A u) {t : TextureId}
    (apart : ∀ i, ¬ active.Concerns i t ∨ active.mipTargets[i]? = some none) : M t = A t := by
  refine frame t fun e here inside => ?_
  obtain ⟨i, found⟩ := List.mem_iff_getElem?.mp here
  rcases apart i with unconcerned | plain
  · exact unconcerned (lowered.concerns found inside)
  · rw [lowered.mip_eq found] at plain
    obtain ⟨_, _, _, -, -, entryOf⟩ := lowered.run.get found
    cases entryOf with
    | whole => cases inside
    | mip => cases plain

/-- The images still have the accesses of their initial layouts when the private textures are
filled. -/
theorem arrives (lowered : active.Lowered rt pass views area entries commands)
    (apart : active.Apart) (arrives : rt.Arrives pass views A)
    (filled : ∀ (i : Nat) e, entries[i]? = some e → e.At pass i .renderAttachment M)
    (frame : ∀ u, (∀ e ∈ entries, u ∉ e.textures) → M u = A u) : rt.Arrives pass views M where
  whole i view image a viewOf attachment level := by
    obtain ⟨mip, t, found, named, attached⟩ := viewOf.attached lowered.started
    cases attached with
    | mip other => exact absurd level other
    | whole =>
      -- Filling leaves an image alone that is rendered to as a whole.
      rw [lowered.unmoved frame fun j => ?_]
      · exact arrives.whole i view image a viewOf attachment level
      · by_cases same : j = i
        · exact .inr (same ▸ found)
        · exact .inl fun other => same (apart.concerns other (.inl named))
  level i view image a access viewOf attachment level starts := by
    obtain ⟨mip, t, found, -, attached⟩ := viewOf.attached lowered.started
    obtain ⟨e, inEntries, rfl⟩ := lowered.entry found
    generalize original : e.1 = mip at attached
    cases attached with
    | whole plain => exact absurd plain level
    | mip => exact (filled i e inEntries).original _ _ a access original attachment starts

/-- Once its private textures are filled, a pass goes by what is known. -/
theorem tracks (lowered : active.Lowered rt pass views area entries commands)
    (apart : active.Apart) (ready : rt.Ready A) (arrives : rt.Arrives pass views A)
    (filled : ∀ (i : Nat) e, entries[i]? = some e → e.At pass i .renderAttachment M)
    (frame : ∀ u, (∀ e ∈ entries, u ∉ e.textures) → M u = A u) : active.Tracks M := by
  refine lowered.started.tracks (fun t discarded => ?_)
    (lowered.arrives apart arrives filled frame) fun i mip t found named => ?_
  · obtain ⟨size, kept⟩ := lowered.started.discarded t discarded
    unfold Accesses.Admits
    rw [lowered.unmoved frame fun i => .inl ?_]
    · exact ready.discarded size t kept
    · rintro (named | ⟨level, found⟩)
      · exact apart.discarded t discarded i named
      · exact (apart.original i t level found).2 discarded
  · obtain ⟨e, inEntries, same⟩ := lowered.entry found
    obtain ⟨_, _, _, -, -, entryOf⟩ := lowered.run.get inEntries
    cases entryOf with
    | whole => cases same
    | @mip _ _ _ _ target =>
      rw [lowered.targets i _ target inEntries rfl] at named
      cases named
      exact (filled i _ inEntries).target _ rfl

end ActiveRenderPass.Lowered

end Begin

/-! ## With objects, or dynamic -/

section Starts

variable {W : Type} {rt rt' : PassRuntime} {pass : RenderPass} {resources : PassResources}
  {recording recording' : PassRecording W}

/-- The checks of `begin` leave the pass to `begin_owned`. -/
theorem beginRenderPass_ok {alloc : Bool} {handle framebuffer : UInt64} {area : Rect2D}
    {clears : List ClearValue} {attachments : Option (List ImageViewHandle)}
    (h : beginRenderPass alloc recording handle framebuffer area clears attachments rt =
      (.ok recording', rt')) :
    ∃ pass fb views area recording₀, rt.resources.renderPasses handle = some pass ∧
      rt.resources.framebuffers framebuffer = some fb ∧
      framebufferViews rt.resources pass fb attachments = .ok views ∧
      recording₀.ops = recording.ops ∧
      beginOwned alloc recording₀ pass views (fb.width, fb.height) area clears rt =
        (.ok recording', rt') := by
  simp only [beginRenderPass, Fallible.read_bind_run] at h
  obtain ⟨pass, found, h⟩ := Fallible.lift_bind_eq_ok.mp h
  obtain ⟨fb, foundFb, h⟩ := Fallible.lift_bind_eq_ok.mp h
  obtain ⟨_, -, h⟩ := Fallible.lift_bind_eq_ok.mp h
  obtain ⟨area, -, h⟩ := Fallible.lift_bind_eq_ok.mp h
  obtain ⟨views, viewed, h⟩ := Fallible.lift_bind_eq_ok.mp h
  exact ⟨pass, fb, views, area, _, okOr_eq_ok.mp found, okOr_eq_ok.mp foundFb, viewed, by rfl, h⟩

end Starts

end Sgfx.Vulkan
