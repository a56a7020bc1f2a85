import Sgfx.Owned
import Sgfx.Vulkan.RenderPassDescriptions

/-!
# Lowering of render passes

A render pass is resolved into passes of the graphics IR, one for each subpass, and one more each
time the current one is interrupted: by a clear of attachments, which is a pass of its own, or by an
action between commands.  A view of a mip level is rendered to a private texture, which is filled by
a blit at the beginning and written back by a blit at the end.

What a draw records is opaque here: it is kept with the textures that its input attachments are
bound to.

## Main Definitions

* `PassResources`, `PassRuntime`, `PassRecording`
* `ActiveRenderPass`, `ActiveRenderPass.emit` — the pass of the current subpass
* `beginOwned`, `nextSubpass`, `clearAttachments`, `suspend`, `resume`, `endRenderPass`
* `draw` with `validateBindings`
-/

namespace Sgfx.Vulkan

/-- `vk::Image`. -/
abbrev ImageHandle := UInt64

/-- `vk::ImageView`. -/
abbrev ImageViewHandle := UInt64

/-- `Image`. -/
structure Image where
  id : TextureId
  format : Format
  width : UInt32
  height : UInt32
  mipLevels : UInt32
  arrayLayers : UInt32
  flags : UInt32
  usage : UInt32
  bound : Option (DeviceMemory × UInt64)
  swapchain : Option UInt64

/-- `Image::usable`. -/
def Image.usable (image : Image) : Bool := image.bound.isSome || image.swapchain.isSome

/-- `Image::mip_extent`. -/
def Image.mipExtent (image : Image) (mip : UInt32) : Except Stop Extent2D :=
  if image.mipLevels ≤ mip then .error invalid
  else .ok ⟨max (image.width >>> mip) 1, max (image.height >>> mip) 1,
    UInt32.max_one_ne_zero _, UInt32.max_one_ne_zero _⟩

/-- `ImageView`. -/
structure ImageView where
  image : ImageHandle
  desc : TextureViewDesc
  components : List UInt8
deriving DecidableEq

/-- The components of a view that swizzles nothing. -/
def identityComponents : List UInt8 := [0, 1, 2, 3]

/-- `AttachmentInfo`. -/
structure AttachmentInfo where
  flags : UInt32
  usage : UInt32
  width : UInt32
  height : UInt32
  layers : UInt32
  formats : List Format

/-- `Framebuffer`. -/
structure Framebuffer where
  imageless : Option (List AttachmentInfo)
  attachments : List ImageViewHandle
  renderPass : RenderPass
  width : UInt32
  height : UInt32

/-- The key of `mip_render_targets`: a format, an extent and the index of an attachment. -/
abbrev MipTargetKey := Format × UInt32 × UInt32 × Nat

/-- `Resources`, as far as render passes depend on it. -/
structure PassResources where
  views : ImageViewHandle → Option ImageView
  images : ImageHandle → Option Image
  renderPasses : UInt64 → Option RenderPass
  framebuffers : UInt64 → Option Framebuffer
  mipRenderTargets : MipTargetKey → Option TextureId
  depthClearColors : UInt32 × UInt32 → Option TextureId

/-- `Runtime`, as far as render passes depend on it. -/
structure PassRuntime where
  resources : PassResources
  table : ResourceTable

/-- `vk::ClearValue`: four words, of which the first is the depth. -/
structure ClearValue where
  red : F32
  green : F32
  blue : F32
  alpha : F32
deriving DecidableEq

/-- `depth_stencil.depth`. -/
def ClearValue.depth (value : ClearValue) : F32 := value.red

/-- `vk::Rect2D`. -/
structure Rect2D where
  x : Int32
  y : Int32
  width : UInt32
  height : UInt32

/-- A command of a recording: one of the IR, what a draw records with the textures that its input
attachments are bound to, or the place of an action between commands. -/
inductive PassOp (W : Type) where
  | command (command : OwnedCommand)
  | work (work : W) (inputs : List TextureId)
  | action (action : W)
deriving DecidableEq

/-- `ActiveRenderPass`. -/
structure ActiveRenderPass where
  pass : RenderPass
  views : List ImageViewHandle
  subpass : Nat
  clears : List ClearValue
  images : List (ImageHandle × TextureId)
  discardedColor : Option TextureId
  mipTargets : List (Option (TextureId × UInt32))
  used : List Bool
  accesses : List (Option TextureAccess)
  area : PixelRect

/-- `ResolvedRecording`, as far as render passes depend on it. -/
structure PassRecording (W : Type) where
  ops : List (PassOp W)
  render : Option (UInt32 × UInt32)
  activeRenderPass : Option ActiveRenderPass
  usedImages : List ImageHandle
  usedFramebuffers : List UInt64
  usedRenderPasses : List UInt64

/-- An error of the core, as a result. -/
def mapStop {α : Type} (x : Except Error α) : Except Stop α :=
  x.mapError fun e => .failed (failure e)

/-! ## Accesses -/

/-- `texture_access`. -/
def textureAccess (layout : ImageLayout) : Except Stop TextureAccess :=
  match normalizeDepthLayout layout with
  | .colorAttachmentOptimal | .depthStencilAttachmentOptimal => .ok .renderAttachment
  | .transferSrcOptimal => .ok .copySource
  | .transferDstOptimal => .ok .copyDestination
  | .shaderReadOnlyOptimal | .depthStencilReadOnlyOptimal => .ok .sampled
  | _ => .error unsupported

/-- `attachment_access`. -/
def attachmentAccess (layout : ImageLayout) : Except Stop TextureAccess :=
  if layout = .general then .ok .renderAttachment else textureAccess layout

section Commands

variable {W : Type}

/-- `texture_barrier`. -/
def textureBarrier (texture : TextureId) (before after : TextureAccess) : List (PassOp W) :=
  if before ≠ after then [.command (.resourceBarrier (.texture texture before after))] else []

/-- `mip_blit`. -/
def mipBlit (source : TextureId) (sourceMip : UInt32) (destination : TextureId)
    (destinationMip : UInt32) (area : PixelRect) : PassOp W :=
  .command (.blitTextureRegion source sourceMip area destination destinationMip area .nearest
    (false, false))

/-! ## The pass of a subpass -/

namespace ActiveRenderPass

variable (self : ActiveRenderPass)

/-- `self.images[index].1`. -/
def texture (index : Nat) : Except Stop TextureId := do
  return (← orPanic self.images[index]?).2

/-- What `access` takes for the access before. -/
def accessBefore (index : Nat) : Except Stop (Option TextureAccess) := do
  match ← orPanic self.accesses[index]? with
  | some known => return some known
  | none =>
    match ← orPanic self.mipTargets[index]? with
    -- The private texture of a mip level was made ready when the pass began.
    | some _ => return none
    | none =>
      let attachment ← orPanic self.pass.attachments[index]?
      return (textureAccess attachment.initialLayout).toOption

/-- The barrier of `access`. -/
def accessBarrier (index : Nat) (after : TextureAccess) : Except Stop (List (PassOp W)) := do
  match ← self.accessBefore index with
  | some before => return textureBarrier (← self.texture index) before after
  | none => return []

/-- `access`. -/
def access (index : Nat) (after : TextureAccess) (ops : List (PassOp W)) :
    Except Stop (ActiveRenderPass × List (PassOp W)) := do
  let barrier ← self.accessBarrier index after
  return ({ self with accesses := self.accesses.set index (some after) }, ops ++ barrier)

/-- `load`. -/
def load (index : Nat) : Except Stop AttachmentLoadOp := do
  if ← orPanic self.used[index]? then return .load
  else return (← orPanic self.pass.attachments[index]?).loadOp

/-- `store`. -/
def store (index : Nat) : Except Stop StoreOp := do
  if (self.pass.subpasses.drop (self.subpass + 1)).any fun p => p.uses index then return .store
  else
    let attachment ← orPanic self.pass.attachments[index]?
    return if attachment.storeOp = .store then .store else .dontCare

/-- `self.used[index] = true`. -/
def use (index : Nat) : ActiveRenderPass := { self with used := self.used.set index true }

/-- The load operation of a colour. -/
def colorLoad (index : Nat) : Except Stop LoadOp := do
  match ← self.load index with
  | .load => return .load
  | .dontCare => return .dontCare
  | .clear =>
    let value ← okOr self.clears[index]? invalid
    return .clear (← mapStop (Color.rgba value.red value.green value.blue value.alpha))
  | .other _ => throw unsupported

/-- The load operation of the depth attachment. -/
def depthLoad (index : Nat) : Except Stop DepthLoadOp := do
  match ← self.load index with
  | .load => return .load
  | .dontCare => return .dontCare
  | .clear =>
    let value ← okOr self.clears[index]? invalid
    failIf (value.depth.isFinite = false ∨ value.depth.inUnitRange = false) invalid
    return .clear value.depth
  | .other _ => throw unsupported

/-- One colour of the subpass. -/
def emitColor (self : ActiveRenderPass) (index : Nat) (ops : List (PassOp W)) :
    Except Stop (OwnedColorAttachment × ActiveRenderPass × List (PassOp W)) := do
  let loadOp ← self.colorLoad index
  let color : OwnedColorAttachment := ⟨← self.texture index, loadOp, ← self.store index⟩
  let (self, ops) ← self.access index .renderAttachment ops
  return (color, self.use index, ops)

/-- The colours of the subpass. -/
def emitColors (self : ActiveRenderPass) (ops : List (PassOp W)) :
    List Nat → Except Stop (List OwnedColorAttachment × ActiveRenderPass × List (PassOp W))
  | [] => .ok ([], self, ops)
  | index :: rest => do
    let (color, self, ops) ← self.emitColor index ops
    let (colors, self, ops) ← emitColors self ops rest
    return (color :: colors, self, ops)

/-- The depth attachment of the subpass. -/
def emitDepth (self : ActiveRenderPass) (readOnly : Bool) (ops : List (PassOp W)) :
    Option Nat → Except Stop (Option OwnedDepthAttachment × ActiveRenderPass × List (PassOp W))
  | none => .ok (none, self, ops)
  | some index => do
    let loadOp ← self.depthLoad index
    let (self, ops) ←
      self.access index (if readOnly then .sampled else .renderAttachment) ops
    let self := self.use index
    return (some ⟨← self.texture index, loadOp, ← self.store index⟩, self, ops)

/-- The inputs of the subpass. -/
def emitInputs (self : ActiveRenderPass) (ops : List (PassOp W)) :
    List Nat → Except Stop (ActiveRenderPass × List (PassOp W))
  | [] => .ok (self, ops)
  | index :: rest => do
    let (self, ops) ← self.access index .sampled ops
    emitInputs (self.use index) ops rest

/-- The command that begins a pass with the attachments. -/
def beginCommand (area : PixelRect) (first : OwnedColorAttachment)
    (rest : List OwnedColorAttachment) (depth : Option OwnedDepthAttachment)
    (readOnlyDepth : Bool) : OwnedCommand :=
  let desc : OwnedRenderPassDesc := ⟨first.target, area, first.load, first.store, depth⟩
  if rest = [] ∧ readOnlyDepth = false then .beginRenderPass desc
  else .beginRenderPassWithAttachments desc rest readOnlyDepth

/-- `emit`. -/
def emit (self : ActiveRenderPass) (ops : List (PassOp W)) :
    Except Stop (ActiveRenderPass × List (PassOp W)) := do
  let subpass ← orPanic self.pass.subpasses[self.subpass]?
  let (colors, self, ops) ← self.emitColors ops subpass.colors
  let (depth, self, ops) ← self.emitDepth subpass.readOnlyDepth ops subpass.depth
  let (self, ops) ← self.emitInputs ops (subpass.inputs.filterMap id)
  match colors with
  -- The graphics IR has no pass without colours.
  | [] =>
    let target ← okOr self.discardedColor invalid
    return (self, ops ++ [.command (beginCommand self.area ⟨target, .dontCare, .dontCare⟩ [] depth
      subpass.readOnlyDepth)])
  | first :: rest =>
    return (self, ops ++ [.command (beginCommand self.area first rest depth
      subpass.readOnlyDepth)])

end ActiveRenderPass

/-! ## Interruptions -/

/-- What `retain_current_pass` makes of a command that begins a pass. -/
def retained : OwnedCommand → Option OwnedCommand
  | .beginRenderPass desc =>
    some (.beginRenderPass { desc with
      store := .store
      depth := desc.depth.map fun depth => { depth with store := .store } })
  | .beginRenderPassWithAttachments desc colors readOnlyDepth =>
    some (.beginRenderPassWithAttachments { desc with
      store := .store
      depth := desc.depth.map fun depth => { depth with store := .store } }
      (colors.map fun color => { color with store := .store }) readOnlyDepth)
  | _ => none

/-- The last command that begins a pass, changed. -/
def retainLast : List (PassOp W) → Option (List (PassOp W))
  | [] => none
  | op :: rest =>
    match retainLast rest with
    | some rest => some (op :: rest)
    | none =>
      match op with
      | .command c => (retained c).map fun c => .command c :: rest
      | _ => none

/-- `retain_current_pass`. -/
def retainCurrentPass (ops : List (PassOp W)) : Except Stop (List (PassOp W)) :=
  okOr (retainLast ops) invalid

/-- `vk::ClearAttachment`. -/
structure ClearAttachment where
  aspectMask : UInt32
  colorAttachment : UInt32
  clearValue : ClearValue

/-- `vk::ClearRect`. -/
structure ClearRect where
  rect : Rect2D
  baseArrayLayer : UInt32
  layerCount : UInt32

/-- `u32::try_from`, of a signed offset. -/
def unsignedOffset (offset : Int32) (e : Stop) : Except Stop UInt32 :=
  if 0 ≤ offset then .ok offset.toUInt32 else .error e

/-- `ir::PixelRect::new(..).map_err(|_| INVALID)`. -/
def pixelRect (x y width height : UInt32) : Except Stop PixelRect :=
  (PixelRect.new x y width height).mapError fun _ => invalid

/-- The area of one rectangle, which lies in the render area. -/
def clearArea (area : PixelRect) (rect : ClearRect) : Except Stop PixelRect := do
  failIf (rect.baseArrayLayer ≠ 0 ∨ rect.layerCount ≠ 1) unsupported
  let x ← unsignedOffset rect.rect.x invalid
  let y ← unsignedOffset rect.rect.y invalid
  let cleared ← pixelRect x y rect.rect.width rect.rect.height
  failIf (cleared.x < area.x ∨ cleared.y < area.y ∨
    area.x + area.width < cleared.x + cleared.width ∨
    area.y + area.height < cleared.y + cleared.height) invalid
  return cleared

/-- The target and the colour of one attachment. -/
def clearTarget (active : ActiveRenderPass) (subpass : Subpass) (attachment : ClearAttachment) :
    Except Stop (TextureId × Color) := do
  failIf (attachment.aspectMask ≠ ASPECT_COLOR) unsupported
  let index ← okOr subpass.colors[attachment.colorAttachment.toNat]? invalid
  let value := attachment.clearValue
  let color ← mapStop (Color.rgba value.red value.green value.blue value.alpha)
  return (← active.texture index, color)

/-- The pass that clears an area of a target. -/
def clearPass (target : TextureId) (color : Color) (area : PixelRect) : List (PassOp W) :=
  [.command (.beginRenderPass ⟨target, area, .clear color, .store, none⟩),
    .command .endRenderPass]

/-- `clear_attachments`. -/
def clearAttachments (rec : PassRecording W) (attachments : List ClearAttachment)
    (rects : List ClearRect) : Except Stop (PassRecording W) := do
  let active ← okOr rec.activeRenderPass invalid
  if attachments.isEmpty || rects.isEmpty then return rec
  else
    let areas ← rects.mapM (clearArea active.area)
    let subpass ← orPanic active.pass.subpasses[active.subpass]?
    let clears ← attachments.mapM (clearTarget active subpass)
    failIf (MAX_COMMANDS / 4 < clears.length * areas.length) (.failed .errorOutOfHostMemory)
    -- The pass is split here, so what it has drawn is stored and loaded again.
    let ops ← retainCurrentPass rec.ops
    let ops := ops ++ [.command .endRenderPass] ++
      clears.flatMap fun clear => areas.flatMap (clearPass clear.1 clear.2)
    let (active, ops) ← active.emit ops
    let ops ← retainCurrentPass ops
    return { rec with ops, activeRenderPass := some active }

/-- `next`. -/
def nextSubpass (rec : PassRecording W) : Except Stop (PassRecording W) := do
  let active ← okOr rec.activeRenderPass invalid
  failIf (active.pass.subpasses.length ≤ active.subpass + 1) invalid
  let active := { active with subpass := active.subpass + 1 }
  let (active, ops) ← active.emit (rec.ops ++ [.command .endRenderPass])
  return { rec with ops, activeRenderPass := some active }

/-- `suspend`. -/
def suspend (rec : PassRecording W) : Except Stop (ActiveRenderPass × PassRecording W) := do
  let ops ← retainCurrentPass rec.ops
  let active ← okOr rec.activeRenderPass invalid
  return (active, { rec with ops := ops ++ [.command .endRenderPass], activeRenderPass := none })

/-- `resume`. -/
def resume (rec : PassRecording W) (active : ActiveRenderPass) : Except Stop (PassRecording W) := do
  let (active, ops) ← active.emit rec.ops
  return { rec with ops, activeRenderPass := some active }

/-- An action between the commands of a pass, which is suspended for it. -/
def interrupt (rec : PassRecording W) (action : W) : Except Stop (PassRecording W) := do
  let (active, rec) ← suspend rec
  resume { rec with ops := rec.ops ++ [.action action] } active

/-! ## The end -/

/-- What the end of the pass records for one attachment. -/
def finalCommands (active : ActiveRenderPass) (index : Nat) (before : Option TextureAccess) :
    Except Stop (List (PassOp W)) := do
  match ← orPanic active.mipTargets[index]? with
  | some (original, level) =>
    let attachment ← orPanic active.pass.attachments[index]?
    if attachment.storeOp = .store then
      let target ← active.texture index
      let initial ← attachmentAccess attachment.initialLayout
      let final ← attachmentAccess attachment.finalLayout
      return textureBarrier target .renderAttachment .copySource ++
        textureBarrier original initial .copyDestination ++
        [mipBlit target 0 original level active.area] ++
        textureBarrier original .copyDestination final
    else return []
  | none =>
    let attachment ← orPanic active.pass.attachments[index]?
    match before, textureAccess attachment.finalLayout with
    | some before, .ok after =>
      if before ≠ after then
        return [.command (.resourceBarrier (.texture (← active.texture index) before after))]
      else return []
    -- No subpass has used the attachment, or its final layout permits several accesses.
    | _, _ => return []

/-- `end`. -/
def endRenderPass (rec : PassRecording W) : Except Stop (PassRecording W) := do
  let active ← okOr rec.activeRenderPass invalid
  failIf (active.subpass + 1 ≠ active.pass.subpasses.length) invalid
  let commands ← active.accesses.zipIdx.mapM fun (before, index) =>
    finalCommands active index before
  return { rec with
    ops := rec.ops ++ [.command .endRenderPass] ++ commands.flatten
    activeRenderPass := none
    render := none }

/-! ## The beginning -/

/-- `rt.table.define_texture(desc).map_err(failure)`. -/
def defineTarget (alloc : Bool) (desc : TextureDesc) : Fallible PassRuntime Stop TextureId :=
  fun rt =>
    let defined := ResourceTable.defineTexture alloc desc rt.table
    (mapStop defined.1, { rt with table := defined.2 })

/-- `discarded_color`. -/
def discardedColor (alloc : Bool) (width height : UInt32) :
    Fallible PassRuntime Stop TextureId := do
  let rt ← Fallible.read
  match rt.resources.depthClearColors (width, height) with
  | some id => return id
  | none =>
    let extent ← (mapStop (Extent2D.new width height) : Except Stop Extent2D)
    let desc ← (mapStop (TextureDesc.new .bgra8Unorm extent .RENDER_ATTACHMENT) :
      Except Stop TextureDesc)
    let id ← defineTarget alloc desc
    Fallible.update fun rt => { rt with
      resources := { rt.resources with
        depthClearColors := Function.update rt.resources.depthClearColors (width, height)
          (some id) } }
    return id

/-- The private texture that a mip level is rendered to. -/
def mipTarget (alloc : Bool) (key : MipTargetKey) (extent : Extent2D) :
    Fallible PassRuntime Stop TextureId := do
  let rt ← Fallible.read
  match rt.resources.mipRenderTargets key with
  | some id => return id
  | none =>
    let format ← (okOr (textureFormat key.1) unsupported : Except Stop TextureFormat)
    let desc ← (mapStop (TextureDesc.new format extent
      ((TextureUsage.RENDER_ATTACHMENT.union .COPY_SRC).union .COPY_DST)) :
        Except Stop TextureDesc)
    let id ← defineTarget alloc desc
    Fallible.update fun rt => { rt with
      resources := { rt.resources with
        mipRenderTargets := Function.update rt.resources.mipRenderTargets key (some id) } }
    return id

/-- The commands that fill a private texture. -/
def fillCommands (attachment : AttachmentDescription) (original target : TextureId)
    (level : UInt32) (area : PixelRect) : Except Stop (List (PassOp W)) := do
  if attachment.loadOp = .load then
    let initial ← attachmentAccess attachment.initialLayout
    return textureBarrier original initial .copySource ++
      textureBarrier target .copySource .copyDestination ++
      [mipBlit original level target 0 area] ++
      textureBarrier original .copySource initial ++
      textureBarrier target .copyDestination .renderAttachment
  else return textureBarrier target .copySource .renderAttachment

/-- The image and the texture of an attachment. -/
def attachedImage (resources : PassResources) (view : ImageViewHandle) :
    Except Stop (ImageHandle × TextureId) := do
  let view ← okOr (resources.views view) invalid
  let image ← okOr (resources.images view.image) invalid
  failIf (image.usable = false) invalid
  return (view.image, image.id)

/-- What a view of a mip level is lowered to, with the attachment's texture and commands. -/
def mipAttachment (alloc : Bool) (pass : RenderPass) (area : PixelRect) (index : Nat)
    (handle : ImageViewHandle) : Fallible PassRuntime Stop
      (Option (TextureId × UInt32) × Option TextureId × List (PassOp W)) := do
  let rt ← Fallible.read
  let view ← (okOr (rt.resources.views handle) invalid : Except Stop ImageView)
  let level := view.desc.baseMipLevel
  if level = 0 then return (none, none, [])
  else
    liftM (failIf (pass.dynamic = false ∨ pass.subpasses.length ≠ 1) unsupported :
      Except Stop Unit)
    let subpass ← (orPanic pass.subpasses[0]? : Except Stop Subpass)
    liftM (failIf (index ∉ subpass.colors) unsupported : Except Stop Unit)
    let image ← (okOr (rt.resources.images view.image) invalid : Except Stop Image)
    let extent ← (image.mipExtent level : Except Stop Extent2D)
    let target ← mipTarget alloc (image.format, extent.width, extent.height, index) extent
    let attachment ← (orPanic pass.attachments[index]? : Except Stop AttachmentDescription)
    let commands ← (fillCommands attachment image.id target level area :
      Except Stop (List (PassOp W)))
    return (some (image.id, level), some target, commands)

/-- The mip levels among the attachments, from an index on. -/
def mipAttachments (alloc : Bool) (pass : RenderPass) (area : PixelRect) :
    Nat → List ImageViewHandle → Fallible PassRuntime Stop
      (List (Option (TextureId × UInt32) × Option TextureId) × List (PassOp W))
  | _, [] => pure ([], [])
  | index, view :: rest => do
    let (mip, target, commands) ← mipAttachment alloc pass area index view
    let (others, later) ← mipAttachments alloc pass area (index + 1) rest
    return ((mip, target) :: others, commands ++ later)

/-- The pass that `begin_owned` starts with. -/
def ActiveRenderPass.start (pass : RenderPass) (views : List ImageViewHandle)
    (clears : List ClearValue) (area : PixelRect) (images : List (ImageHandle × TextureId))
    (mipTargets : List (Option (TextureId × UInt32))) (discardedColor : Option TextureId) :
    ActiveRenderPass := {
  pass, views, clears, images, discardedColor, mipTargets, area
  subpass := 0
  used := List.replicate pass.attachments.length false
  accesses := List.replicate pass.attachments.length none }

/-- The colour of the subpasses that have none, if there are any. -/
def discardedFor (alloc : Bool) (pass : RenderPass) (extent : UInt32 × UInt32) :
    Fallible PassRuntime Stop (Option TextureId) :=
  if pass.subpasses.any fun p => p.colors.isEmpty then do
    return some (← discardedColor alloc extent.1 extent.2)
  else pure none

/-- `begin_owned`. -/
def beginOwned (alloc : Bool) (rec : PassRecording W) (pass : RenderPass)
    (views : List ImageViewHandle) (extent : UInt32 × UInt32) (area : PixelRect)
    (clears : List ClearValue) : Fallible PassRuntime Stop (PassRecording W) := do
  let rt ← Fallible.read
  let images ← (views.mapM (attachedImage rt.resources) :
    Except Stop (List (ImageHandle × TextureId)))
  let (mips, commands) ← mipAttachments alloc pass area 0 views
  let images := images.zipWith (fun image mip => (image.1, mip.2.getD image.2)) mips
  let discarded ← discardedFor alloc pass extent
  let active := ActiveRenderPass.start pass views clears area images (mips.map Prod.fst) discarded
  let (active, ops) ← (active.emit (rec.ops ++ commands) :
    Except Stop (ActiveRenderPass × List (PassOp W)))
  return { rec with
    ops
    usedImages := rec.usedImages ++ images.map Prod.fst
    render := some extent
    activeRenderPass := some active }

/-! ## Draws -/

/-- An input attachment of a pipeline: the descriptor that it is read through, and its index among
the inputs of the subpass. -/
structure PipelineInput where
  group : UInt32
  binding : UInt32
  index : Nat

/-- What `resources` keeps of a graphics pipeline, with the bindings of each group of its layout. -/
structure GraphicsPipeline where
  subpass : Option (RenderPass × Nat)
  inputs : Option (List PipelineInput)
  groups : List (List UInt32)
  writesDepth : Bool

/-- `DescriptorSet`, as far as input attachments depend on it. -/
structure InputSet where
  sourceToIr : UInt32 → Option UInt32
  isInputAttachment : UInt32 → Bool
  images : UInt32 → Option ImageViewHandle

/-- The set that an input attachment is read through, if the layout of the pipeline has it. -/
def liveSet (pipeline : GraphicsPipeline) (sets : UInt32 → Option InputSet)
    (input : PipelineInput) : Except Stop (Option InputSet) :=
  match pipeline.groups[input.group.toNat]? with
  | none | some [] => .ok none
  | some entries => do
    let set ← okOr (sets input.group) invalid
    let binding ← okOr (set.sourceToIr input.binding) invalid
    return if binding ∈ entries then some set else none

/-- The attachment that an input of a pipeline names. -/
def inputAttachment (active : ActiveRenderPass) (input : PipelineInput) : Except Stop Nat := do
  let subpass ← orPanic active.pass.subpasses[active.subpass]?
  okOr subpass.inputs[input.index]?.join invalid

/-- The check of one input attachment. -/
def validateInput (resources : PassResources) (active : ActiveRenderPass)
    (pipeline : GraphicsPipeline) (sets : UInt32 → Option InputSet) (input : PipelineInput) :
    Except Stop Unit := do
  match ← liveSet pipeline sets input with
  | none => return
  | some set =>
    failIf (set.isInputAttachment input.binding = false) invalid
    let view ← okOr (set.images input.binding) invalid
    let index ← inputAttachment active input
    let bound ← okOr (resources.views view) invalid
    let attached ← okOr (resources.views (← orPanic active.views[index]?)) invalid
    failIf (bound.image ≠ attached.image ∨ bound.desc ≠ attached.desc ∨
      bound.components ≠ identityComponents) invalid

/-- `validate_bindings`. -/
def validateBindings (resources : PassResources) (active : ActiveRenderPass)
    (pipeline : GraphicsPipeline) (sets : UInt32 → Option InputSet) : Except Stop Unit := do
  let (pass, subpass) ← okOr pipeline.subpass invalid
  failIf (subpass ≠ active.subpass ∨ pass.compatible active.pass = false) invalid
  let inputs ← okOr pipeline.inputs invalid
  forEach inputs (validateInput resources active pipeline sets)

/-- The inputs of a pipeline that its draws read. -/
def liveInputs (pipeline : GraphicsPipeline) (sets : UInt32 → Option InputSet) :
    List (PipelineInput × InputSet) :=
  (pipeline.inputs.getD []).filterMap fun input =>
    match liveSet pipeline sets input with
    | .ok (some set) => some (input, set)
    | _ => none

/-- The texture that an input is bound to. -/
def boundTexture (resources : PassResources) (input : PipelineInput × InputSet) :
    Except Stop TextureId := do
  let handle ← okOr (input.2.images input.1.binding) invalid
  let view ← okOr (resources.views handle) invalid
  let image ← okOr (resources.images view.image) invalid
  return image.id

/-- A draw in a render pass: the part of `graphics_bindings` that depends on the pass, and what is
recorded. -/
def draw (resources : PassResources) (rec : PassRecording W) (pipeline : GraphicsPipeline)
    (sets : UInt32 → Option InputSet) (work : W) : Except Stop (PassRecording W) := do
  let active ← okOr rec.activeRenderPass invalid
  validateBindings resources active pipeline sets
  let subpass ← orPanic active.pass.subpasses[active.subpass]?
  failIf (subpass.readOnlyDepth = true ∧ pipeline.writesDepth = true) invalid
  let inputs ← (liveInputs pipeline sets).mapM (boundTexture resources)
  return { rec with ops := rec.ops ++ [.work work inputs] }

/-! ## Framebuffers -/

/-- `render_area`. -/
def renderArea (area : Rect2D) (width height : UInt32) : Except Stop PixelRect := do
  let x ← unsignedOffset area.x invalid
  let y ← unsignedOffset area.y invalid
  let area ← pixelRect x y area.width area.height
  failIf (width < area.x + area.width ∨ height < area.y + area.height) invalid
  return area

/-- The checks of one view of an imageless framebuffer. -/
def checkImageless (resources : PassResources)
    (entry : (ImageViewHandle × AttachmentInfo) × AttachmentDescription) : Except Stop Unit := do
  let view ← okOr (resources.views entry.1.1) invalid
  let image ← okOr (resources.images view.image) invalid
  let d := entry.1.2
  failIf (image.flags ≠ d.flags ∨ hasFlags image.usage d.usage = false ∨ image.width < d.width ∨
    image.height < d.height ∨ image.arrayLayers ≠ d.layers ∨ image.format ≠ entry.2.format ∨
    image.format ∉ d.formats ∨ view.components ≠ identityComponents ∨
    view.desc.baseMipLevel ≠ 0 ∨ view.desc.mipLevelCount ≠ 1 ∨ view.desc.baseArrayLayer ≠ 0 ∨
    view.desc.arrayLayerCount ≠ 1) unsupported

/-- The views that a framebuffer is begun with. -/
def framebufferViews (resources : PassResources) (pass : RenderPass) (fb : Framebuffer)
    (attachments : Option (List ImageViewHandle)) : Except Stop (List ImageViewHandle) :=
  match fb.imageless with
  | some descriptions => do
    let views ← okOr attachments invalid
    failIf (views.length ≠ descriptions.length) invalid
    forEach ((views.zip descriptions).zip pass.attachments) (checkImageless resources)
    return views
  | none => do
    failIf (attachments.any (fun a => !a.isEmpty) = true) invalid
    return fb.attachments

/-- `begin`. -/
def beginRenderPass (alloc : Bool) (rec : PassRecording W) (renderPass framebuffer : UInt64)
    (area : Rect2D) (clears : List ClearValue) (attachments : Option (List ImageViewHandle)) :
    Fallible PassRuntime Stop (PassRecording W) := do
  let rt ← Fallible.read
  let pass ← (okOr (rt.resources.renderPasses renderPass) invalid : Except Stop RenderPass)
  let fb ← (okOr (rt.resources.framebuffers framebuffer) invalid : Except Stop Framebuffer)
  liftM (failIf (pass.compatible fb.renderPass = false) invalid : Except Stop Unit)
  let area ← (renderArea area fb.width fb.height : Except Stop PixelRect)
  let views ← (framebufferViews rt.resources pass fb attachments :
    Except Stop (List ImageViewHandle))
  beginOwned alloc { rec with
    usedFramebuffers := rec.usedFramebuffers ++ [framebuffer]
    usedRenderPasses := rec.usedRenderPasses ++ [renderPass] } pass views (fb.width, fb.height)
    area clears

/-! ## Dynamic rendering -/

/-- `Attachment`, with operations that `attachment` has accepted. -/
structure RenderingAttachment where
  view : ImageViewHandle
  layout : ImageLayout
  load : AttachmentLoadOp
  store : AttachmentStoreOp
  clear : ClearValue
  known : load.known = true ∧ store.known = true

/-- `Rendering`. -/
structure Rendering where
  area : Rect2D
  colors : List RenderingAttachment
  depth : Option RenderingAttachment

/-- The limits of the device that `begin` reads. -/
structure RenderingLimits where
  maxColorAttachments : Nat
  typedTextureViews : Bool

/-- What `begin` has gathered from the attachments so far. -/
structure RenderingAttachments where
  formats : List Format
  views : List ImageViewHandle
  clears : List ClearValue
  descriptions : List AttachmentDescription
  dimensions : UInt32 × UInt32
  depthFormat : Format
  readOnly : Bool

/-- The layout of an attachment, by its aspect. -/
def renderingLayout (depth : Bool) (layout : ImageLayout) : ImageLayout :=
  normalizeDepthLayout <| match layout with
  | .attachmentOptimal => if depth then .depthStencilAttachmentOptimal else .colorAttachmentOptimal
  | .readOnlyOptimal => if depth then .depthStencilReadOnlyOptimal else .readOnlyOptimal
  | other => other

/-- `vk::ImageUsageFlags::COLOR_ATTACHMENT`. -/
def USAGE_COLOR_ATTACHMENT : UInt32 := 0x10

/-- `vk::ImageUsageFlags::DEPTH_STENCIL_ATTACHMENT`. -/
def USAGE_DEPTH_STENCIL_ATTACHMENT : UInt32 := 0x20

/-- One attachment of dynamic rendering. -/
def gatherAttachment (resources : PassResources) (depth : Bool) (g : RenderingAttachments)
    (a : RenderingAttachment) : Except Stop RenderingAttachments := do
  let view ← okOr (resources.views a.view) invalid
  let image ← okOr (resources.images view.image) invalid
  let layout := renderingLayout depth a.layout
  failIf (image.usable = false ∨ hasFlags image.usage
      (if depth then USAGE_DEPTH_STENCIL_ATTACHMENT else USAGE_COLOR_ATTACHMENT) = false ∨
    some view.desc.format ≠ textureFormat image.format ∨ view.components ≠ identityComponents ∨
    (depth = true ∧ view.desc.baseMipLevel ≠ 0) ∨ view.desc.mipLevelCount ≠ 1 ∨
    view.desc.baseArrayLayer ≠ 0 ∨ view.desc.arrayLayerCount ≠ 1 ∨
    (depth = true ∧ (image.format ≠ .d32Sfloat ∨ layout = .colorAttachmentOptimal)) ∨
    ¬ (layout = .general ∨ layout = .colorAttachmentOptimal ∨
      layout = .depthStencilAttachmentOptimal ∨ layout = .depthStencilReadOnlyOptimal)) unsupported
  failIf (depth = false ∧ (layout = .depthStencilReadOnlyOptimal ∨
    layout = .depthStencilAttachmentOptimal)) unsupported
  let readOnly := if depth then layout == .depthStencilReadOnlyOptimal else g.readOnly
  failIf (readOnly = true ∧ a.load = .clear) invalid
  let extent ← image.mipExtent view.desc.baseMipLevel
  return {
    formats := if depth then g.formats else g.formats ++ [image.format]
    views := g.views ++ [a.view]
    clears := g.clears ++ [a.clear]
    descriptions := g.descriptions ++ [⟨0, image.format, SAMPLES_1, a.load, a.store, .load, .store,
      layout, layout⟩]
    dimensions := (min g.dimensions.1 extent.width, min g.dimensions.2 extent.height)
    depthFormat := if depth then image.format else g.depthFormat
    readOnly }

/-- The attachments of dynamic rendering, the depth last. -/
def gatherAttachments (resources : PassResources) (rendering : Rendering) :
    Except Stop RenderingAttachments := do
  let colors ← rendering.colors.foldlM (gatherAttachment resources false)
    ⟨[], [], [], [], (0xffffffff, 0xffffffff), .undefined, false⟩
  match rendering.depth with
  | some depth => gatherAttachment resources true colors depth
  | none => return colors

/-- `dynamic_rendering::begin`. -/
def beginRendering (alloc : Bool) (limits : RenderingLimits) (rec : PassRecording W)
    (rendering : Rendering) : Fallible PassRuntime Stop (PassRecording W) := do
  let rt ← Fallible.read
  liftM (failIf (rec.render.isSome = true) invalid : Except Stop Unit)
  let g ← (gatherAttachments rt.resources rendering : Except Stop RenderingAttachments)
  liftM (failIf (limits.maxColorAttachments < g.formats.length ∨
    (g.readOnly = true ∧ limits.typedTextureViews = false)) unsupported : Except Stop Unit)
  let pass ← (dynamicPass g.formats g.depthFormat g.readOnly : Except Stop RenderPass)
  let pass := { pass with attachments := g.descriptions }
  let area ← (renderArea rendering.area g.dimensions.1 g.dimensions.2 : Except Stop PixelRect)
  beginOwned alloc rec pass g.views g.dimensions area g.clears

/-! ## A whole render pass -/

/-- A command of a render pass. -/
inductive PassCall (W : Type) where
  | clearAttachments (attachments : List ClearAttachment) (rects : List ClearRect)
  | nextSubpass
  | interrupt (action : W)
  | draw (pipeline : GraphicsPipeline) (sets : UInt32 → Option InputSet) (work : W)

/-- A command of a render pass is recorded. -/
def PassCall.run (resources : PassResources) (recording : PassRecording W) :
    PassCall W → Except Stop (PassRecording W)
  | .clearAttachments attachments rects => Vulkan.clearAttachments recording attachments rects
  | .nextSubpass => Vulkan.nextSubpass recording
  | .interrupt action => Vulkan.interrupt recording action
  | .draw pipeline sets work => Vulkan.draw resources recording pipeline sets work

/-- The beginning of a render pass: with objects, or dynamic. -/
inductive PassStart where
  | renderPass (renderPass framebuffer : UInt64) (area : Rect2D) (clears : List ClearValue)
      (attachments : Option (List ImageViewHandle))
  | rendering (limits : RenderingLimits) (rendering : Rendering)

/-- The beginning of a render pass is recorded. -/
def PassStart.run (alloc : Bool) (recording : PassRecording W) :
    PassStart → Fallible PassRuntime Stop (PassRecording W)
  | .renderPass handle framebuffer area clears attachments =>
    beginRenderPass alloc recording handle framebuffer area clears attachments
  | .rendering limits info => beginRendering alloc limits recording info

end Commands

end Sgfx.Vulkan
