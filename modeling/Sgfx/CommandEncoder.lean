import Sgfx.Command

/-!
# The command encoder

`CommandEncoder` records commands outside passes, and keeps two lists that make
storage writes and barriers mean something: the writes still waiting for a
barrier, and the accesses that barriers have announced but no command has made
yet.  Recording checks every access against both lists; `push` is the one place
that appends a command, and it also consumes the announcements of the commands
it knows about.

A method that takes `&self` is a plain check here; one that takes `&mut self` is
a `Fallible` computation over the encoder.  The resource table is read through a
shared reference on every call, so each call takes the table it sees, and
`Allocator` answers every `try_reserve`.

## Main Definitions

* `PendingWrite`, `AnnouncedAccess`
* `CommandEncoder` and its recording methods
* `CommandEncoder.validateGroups` — what the bound groups of a draw access
-/

namespace Sgfx

/-- Maximum commands retained by one logical command buffer. -/
def MAX_COMMANDS : Nat := 65536

/-- Where recording reserves memory; `uses` is reserved once per binding. -/
inductive ReserveSite where
  | commands
  | announced
  | announcedAccesses
  | uses (length : Nat)
  | pending
  | used
  | pendingWrites
  | usedResources
deriving DecidableEq

/-- The allocator's answers during one call. -/
abbrev Allocator := ReserveSite → Bool

/-- `try_reserve(..).map_err(|_| Error::OutOfMemory)`. -/
def tryReserve (alloc : Allocator) (site : ReserveSite) : Except Error Unit :=
  failIf (alloc site = false) .outOfMemory

/-! ## Pending writes and announced accesses -/

/-- A location written by shaders, or used by a draw: a buffer, a whole texture
or one of its mip levels. -/
inductive PendingWrite where
  | buffer (id : BufferId)
  | texture (id : TextureId)
  | textureMip (id : TextureId) (mip : UInt32)
deriving DecidableEq

/-- `PendingWrite::aliases`: buffers by identity, textures whatever the level. -/
def PendingWrite.aliases : PendingWrite → PendingWrite → Bool
  | buffer a, buffer b => a == b
  | texture a, texture b | texture a, textureMip b _ => a == b
  | textureMip a _, texture b | textureMip a _, textureMip b _ => a == b
  | _, _ => false

/-- The access a barrier announced for a buffer or one mip level. -/
inductive AnnouncedAccess where
  | buffer (id : BufferId) (access : BufferAccess)
  | texture (id : TextureId) (mip : UInt32) (access : TextureAccess)
deriving DecidableEq

/-- `AnnouncedAccess::resource`. -/
def AnnouncedAccess.resource : AnnouncedAccess → PendingWrite
  | buffer id _ => .buffer id
  | texture id _ _ => .texture id

/-- Whether `consume_access` with this key drops the entry. -/
def PendingWrite.consumes (resource : PendingWrite) (entry : AnnouncedAccess) : Bool :=
  match resource, entry with
  | .textureMip id mip, .texture other level _ => other == id && level == mip
  | .textureMip _ _, .buffer _ _ => false
  | resource, entry => entry.resource == resource

/-- The accesses of one draw or dispatch. -/
structure GroupAccesses where
  writes : List PendingWrite
  used : List PendingWrite
deriving DecidableEq

/-! ## State and primitives -/

/-- Encoder that records validated logical graphics commands. -/
structure CommandEncoder where
  commands : List Command
  commandCount : Nat
  validationOnly : Bool
  passOpen : Bool
  pendingWrites : List PendingWrite
  announcedAccesses : List AnnouncedAccess
deriving DecidableEq

namespace CommandEncoder

open Fallible

/-- `CommandEncoder::new`. -/
def new : CommandEncoder := ⟨[], 0, false, false, [], []⟩

/-- `CommandEncoder::for_validation`. -/
def forValidation : CommandEncoder := { new with validationOnly := true }

/-- `ensure_outside_pass`. -/
def ensureOutsidePass (e : CommandEncoder) : Except Error Unit :=
  failIf (e.passOpen = true) .renderPassActive

/-- `consume_access` with each of the keys in turn. -/
def consumeAccesses (e : CommandEncoder) (keys : List PendingWrite) : CommandEncoder :=
  { e with announcedAccesses :=
      e.announcedAccesses.filter fun entry => keys.all fun key => !key.consumes entry }

/-- The keys `push` consumes for each command. -/
def consumedByPush : Command → List PendingWrite
  | .writeBuffer buffer _ _ => [.buffer buffer]
  | .writeTexture texture _ => [.texture texture]
  | .copyBufferToBuffer source _ destination _ _ => [.buffer source, .buffer destination]
  | .copyTextureToTexture source _ destination _ => [.texture source, .texture destination]
  | .beginRenderPass desc =>
      (desc.colorAttachments.map fun attachment => .texture attachment.target) ++
        desc.depth.toList.map fun depth => .texture depth.target
  | _ => []

/-- Append a command; a validation-only encoder counts it without keeping it. -/
def append (e : CommandEncoder) (command : Command) : CommandEncoder :=
  { e with
    commandCount := e.commandCount + 1
    commands := if e.validationOnly then e.commands else e.commands ++ [command] }

/-- The reservation `push` and `push_pass_end` make. -/
def reserveCommand (e : CommandEncoder) (alloc : Allocator) : Except Error Unit :=
  if e.validationOnly then .ok () else tryReserve alloc .commands

/-- `push`: record a command, keeping a slot for the end of an open pass. -/
def push (alloc : Allocator) (command : Command) : Fallible CommandEncoder Error Unit := do
  let e ← read
  liftM (failIf (MAX_COMMANDS - (if e.passOpen then 1 else 0) ≤ e.commandCount)
    Error.commandLimitExceeded)
  liftM (e.reserveCommand alloc)
  update fun e => (e.consumeAccesses (consumedByPush command)).append command

/-- `reserve_pass_begin`. -/
def reservePassBegin (e : CommandEncoder) : Except Error Unit :=
  failIf (MAX_COMMANDS - 2 < e.commandCount) .commandLimitExceeded

/-- `push_pass_end`. -/
def pushPassEnd (alloc : Allocator) (command : Command) : Fallible CommandEncoder Error Unit := do
  let e ← read
  liftM (failIf (MAX_COMMANDS ≤ e.commandCount) Error.commandLimitExceeded)
  liftM (e.reserveCommand alloc)
  update fun e => e.append command

/-- `require_texture_usage`. -/
def requireTextureUsage (usage required : TextureUsage) : Except Error Unit :=
  failIf (usage.contains required = false) .invalidUsage

/-- `require_buffer_usage`. -/
def requireBufferUsage (usage required : BufferUsage) : Except Error Unit :=
  failIf (usage.contains required = false) .invalidUsage

/-- `validate_byte_range`. -/
def validateByteRange (offset length limit : UInt64) : Except Error Unit := do
  let finish ← okOr (checkedAdd64 offset length) .overflow
  failIf (limit < finish) .outOfBounds

/-! ## Access checks -/

/-- Whether a write of this mip level is pending. -/
def mipPending (e : CommandEncoder) (texture : TextureId) (mip : UInt32) : Bool :=
  e.pendingWrites.contains (.textureMip texture mip) ||
    (mip == 0 && e.pendingWrites.contains (.texture texture))

/-- `check_buffer_access`. -/
def checkBufferAccess (e : CommandEncoder) (buffer : BufferId) (access : BufferAccess) :
    Except Error Unit := do
  failIf (e.pendingWrites.contains (.buffer buffer) = true) .missingBarrier
  failIf (e.announcedAccesses.any (fun entry => match entry with
      | .buffer id expected => id == buffer && expected != access
      | .texture .. => false) = true)
    .invalidResourceAccess

/-- `check_texture_mip_access`. -/
def checkTextureMipAccess (T : ResourceTable) (e : CommandEncoder) (texture : TextureId)
    (mip : UInt32) (access : TextureAccess) : Except Error Unit := do
  let desc ← T.texture texture
  let _ ← desc.mipExtent mip
  failIf (e.mipPending texture mip = true) .missingBarrier
  failIf (e.announcedAccesses.any (fun entry => match entry with
      | .texture id level expected => id == texture && level == mip && expected != access
      | .buffer .. => false) = true)
    .invalidResourceAccess

/-- `check_texture_access`: every declared level. -/
def checkTextureAccess (T : ResourceTable) (e : CommandEncoder) (texture : TextureId)
    (access : TextureAccess) : Except Error Unit := do
  let desc ← T.texture texture
  forEach desc.mipLevels fun mip => checkTextureMipAccess T e texture mip access

/-- `validate_texture_transition`. -/
def validateTextureTransition (T : ResourceTable) (e : CommandEncoder) (texture : TextureId)
    (mip : UInt32) (before after : TextureAccess) : Except Error Unit := do
  let desc ← T.texture texture
  let _ ← desc.mipExtent mip
  requireTextureUsage desc.usage before.usage
  requireTextureUsage desc.usage after.usage
  failIf (e.mipPending texture mip = true ∧ before ≠ .storageWrite) .invalidResourceAccess
  failIf (e.announcedAccesses.any (fun entry => match entry with
      | .texture id level expected => id == texture && level == mip && expected != before
      | .buffer .. => false) = true)
    .invalidResourceAccess

/-! ## Uploads, copies and blits -/

/-- `write_buffer`. -/
def writeBuffer (T : ResourceTable) (alloc : Allocator) (buffer : BufferId) (offset : UInt64)
    (data : ByteSlice) : Fallible CommandEncoder Error Unit := do
  let e ← read
  liftM e.ensureOutsidePass
  let desc ← liftM (T.buffer buffer)
  liftM (requireBufferUsage desc.usage .COPY_DST)
  liftM (failIf (data.len = 0) Error.invalidValue)
  liftM (validateByteRange offset data.len desc.size)
  liftM (e.checkBufferAccess buffer .copyDestination)
  push alloc (.writeBuffer buffer offset data)

/-- The bytes a texture upload reads from its source slice. -/
def requiredUpload (write : TextureWrite) (format : TextureFormat) : Except Error UInt64 := do
  let pixel ← okOr format.bytesPerPixel .invalidDescriptor
  let tight ← okOr (checkedMul32 write.destination.width pixel) .overflow
  failIf (write.bytesPerRow < tight) .invalidValue
  let rowsBeforeLast := (write.destination.height - 1).toUInt64
  okOr ((checkedMul64 write.bytesPerRow.toUInt64 rowsBeforeLast).bind fun rows =>
    checkedAdd64 rows tight.toUInt64) .overflow

/-- `write_texture`. -/
def writeTexture (T : ResourceTable) (alloc : Allocator) (texture : TextureId)
    (write : TextureWrite) : Fallible CommandEncoder Error Unit := do
  let e ← read
  liftM e.ensureOutsidePass
  let desc ← liftM (T.texture texture)
  liftM (requireTextureUsage desc.usage .COPY_DST)
  liftM (failIf (desc.arrayLayerCount ≤ write.arrayLayer) Error.outOfBounds)
  let extent ← liftM (desc.mipExtent write.mipLevel)
  liftM (failIf (write.destination.isWithin extent = false) Error.outOfBounds)
  let required ← liftM (requiredUpload write desc.format)
  liftM (failIf (write.data.len < required) Error.outOfBounds)
  liftM (checkTextureMipAccess T e texture write.mipLevel .copyDestination)
  push alloc (.writeTexture texture write)

/-- `blit_texture_region_flipped`. -/
def blitTextureRegionFlipped (T : ResourceTable) (alloc : Allocator) (source : TextureId)
    (sourceMip : UInt32) (sourceRect : PixelRect) (destination : TextureId)
    (destinationMip : UInt32) (destinationRect : PixelRect) (filter : FilterMode)
    (flips : Bool × Bool) : Fallible CommandEncoder Error Unit := do
  let e ← read
  liftM e.ensureOutsidePass
  let src ← liftM (T.texture source)
  let dst ← liftM (T.texture destination)
  liftM (requireTextureUsage src.usage .COPY_SRC)
  liftM (requireTextureUsage dst.usage .COPY_DST)
  let sourceExtent ← liftM (src.mipExtent sourceMip)
  liftM (failIf (sourceRect.isWithin sourceExtent = false) Error.outOfBounds)
  let destinationExtent ← liftM (dst.mipExtent destinationMip)
  liftM (failIf (destinationRect.isWithin destinationExtent = false) Error.outOfBounds)
  liftM (failIf (src.format.blitCompatible dst.format = false ∨ src.arrayLayerCount ≠ 1 ∨
      dst.arrayLayerCount ≠ 1 ∨
      ¬ (src.format = .rgba8Unorm ∨ src.format = .bgra8Unorm ∨ src.format = .r8Unorm ∨
        src.format = .rg8Unorm))
    Error.invalidDescriptor)
  let same ← liftM (T.sameTexture source destination)
  liftM (failIf (same = true ∧ sourceMip = destinationMip) Error.resourceAccessConflict)
  liftM (checkTextureMipAccess T e source sourceMip .copySource)
  liftM (checkTextureMipAccess T e destination destinationMip .copyDestination)
  push alloc (.blitTexture source sourceMip destination destinationMip sourceRect
    destinationRect filter flips)

/-- `blit_texture_region`. -/
def blitTextureRegion (T : ResourceTable) (alloc : Allocator) (source : TextureId)
    (sourceMip : UInt32) (sourceRect : PixelRect) (destination : TextureId)
    (destinationMip : UInt32) (destinationRect : PixelRect) (filter : FilterMode) :
    Fallible CommandEncoder Error Unit :=
  blitTextureRegionFlipped T alloc source sourceMip sourceRect destination destinationMip
    destinationRect filter (false, false)

/-- `blit_texture`: both complete levels. -/
def blitTexture (T : ResourceTable) (alloc : Allocator) (source : TextureId)
    (sourceMip : UInt32) (destination : TextureId) (destinationMip : UInt32)
    (filter : FilterMode) : Fallible CommandEncoder Error Unit := do
  let sourceDesc ← liftM (T.texture source)
  let src ← liftM (sourceDesc.mipExtent sourceMip)
  let destinationDesc ← liftM (T.texture destination)
  let dst ← liftM (destinationDesc.mipExtent destinationMip)
  let sourceRect ← liftM (PixelRect.new 0 0 src.width src.height)
  let destinationRect ← liftM (PixelRect.new 0 0 dst.width dst.height)
  blitTextureRegion T alloc source sourceMip sourceRect destination destinationMip
    destinationRect filter

/-- `copy_texture_to_texture`. -/
def copyTextureToTexture (T : ResourceTable) (alloc : Allocator) (source : TextureId)
    (sourceRect : PixelRect) (destination : TextureId) (destinationRect : PixelRect) :
    Fallible CommandEncoder Error Unit := do
  let e ← read
  liftM e.ensureOutsidePass
  let sourceDesc ← liftM (T.texture source)
  let destinationDesc ← liftM (T.texture destination)
  liftM (requireTextureUsage sourceDesc.usage .COPY_SRC)
  liftM (requireTextureUsage destinationDesc.usage .COPY_DST)
  liftM (failIf (sourceDesc.format ≠ destinationDesc.format ∨
      sourceDesc.arrayLayerCount ≠ 1 ∨ destinationDesc.arrayLayerCount ≠ 1 ∨
      sourceRect.sameExtent destinationRect = false)
    Error.invalidDescriptor)
  liftM (failIf (sourceRect.isWithin sourceDesc.extent = false ∨
      destinationRect.isWithin destinationDesc.extent = false) Error.outOfBounds)
  let same ← liftM (T.sameTexture source destination)
  liftM (failIf (same = true ∧ sourceRect.overlaps destinationRect = true) Error.invalidValue)
  liftM (checkTextureMipAccess T e source 0 .copySource)
  liftM (checkTextureMipAccess T e destination 0 .copyDestination)
  push alloc (.copyTextureToTexture source sourceRect destination destinationRect)

/-- `copy_buffer_to_buffer`. -/
def copyBufferToBuffer (T : ResourceTable) (alloc : Allocator) (source : BufferId)
    (sourceOffset : UInt64) (destination : BufferId) (destinationOffset size : UInt64) :
    Fallible CommandEncoder Error Unit := do
  let e ← read
  liftM e.ensureOutsidePass
  let src ← liftM (T.buffer source)
  let dst ← liftM (T.buffer destination)
  liftM (requireBufferUsage src.usage .COPY_SRC)
  liftM (requireBufferUsage dst.usage .COPY_DST)
  liftM (failIf (size = 0 ∨ sourceOffset % 4 ≠ 0 ∨ destinationOffset % 4 ≠ 0 ∨ size % 4 ≠ 0)
    Error.invalidValue)
  liftM (validateByteRange sourceOffset size src.size)
  liftM (validateByteRange destinationOffset size dst.size)
  liftM (failIf (source.refEq destination = true) Error.resourceAccessConflict)
  liftM (e.checkBufferAccess source .copySource)
  liftM (e.checkBufferAccess destination .copyDestination)
  push alloc (.copyBufferToBuffer source sourceOffset destination destinationOffset size)

/-! ## Barriers -/

/-- The announcements of a barrier that names a resource, after its checks. -/
def transitions (T : ResourceTable) (alloc : Allocator) (e : CommandEncoder) :
    ResourceBarrier → Except Error (List AnnouncedAccess)
  | .global => .ok []
  | .buffer buffer before after => do
      let desc ← T.buffer buffer
      requireBufferUsage desc.usage before.usage
      requireBufferUsage desc.usage after.usage
      failIf (e.pendingWrites.contains (.buffer buffer) = true ∧ before ≠ .storageReadWrite)
        .invalidResourceAccess
      failIf (e.announcedAccesses.any (fun entry => match entry with
          | .buffer id access => id == buffer && access != before
          | .texture .. => false) = true)
        .invalidResourceAccess
      tryReserve alloc .announced
      pure [.buffer buffer after]
  | .texture texture before after => do
      let desc ← T.texture texture
      tryReserve alloc .announced
      forEach desc.mipLevels fun mip =>
        validateTextureTransition T e texture mip before after
      pure (desc.mipLevels.map fun mip => .texture texture mip after)
  | .textureMip texture mip before after => do
      validateTextureTransition T e texture mip before after
      tryReserve alloc .announced
      pure [.texture texture mip after]

/-- One step of the final loop of `resource_barrier`: drop the pending writes and
the announcement of the location, and announce the new access. -/
def announce (e : CommandEncoder) (access : AnnouncedAccess) : CommandEncoder :=
  match access with
  | .buffer id _ =>
      { e with
        pendingWrites := e.pendingWrites.filter (· != .buffer id)
        announcedAccesses :=
          e.announcedAccesses.filter (fun entry => entry.resource != .buffer id) ++ [access] }
  | .texture id mip _ =>
      { e with
        pendingWrites := e.pendingWrites.filter fun pending =>
          !(mip == 0 && pending == .texture id) && pending != .textureMip id mip
        announcedAccesses := e.announcedAccesses.filter (fun entry => match entry with
            | .texture other level _ => !(other == id && level == mip)
            | .buffer .. => true) ++ [access] }

/-- `resource_barrier`. -/
def resourceBarrier (T : ResourceTable) (alloc : Allocator) (barrier : ResourceBarrier) :
    Fallible CommandEncoder Error Unit := do
  let e ← read
  liftM e.ensureOutsidePass
  if barrier = .global then
    push alloc (.resourceBarrier barrier)
    update fun e => { e with pendingWrites := [], announcedAccesses := [] }
  else
    let announced ← liftM (e.transitions T alloc barrier)
    liftM (tryReserve alloc .announcedAccesses)
    push alloc (.resourceBarrier barrier)
    update fun e => announced.foldl announce e

/-! ## Bound groups -/

/-- The access a binding makes to a buffer. -/
def bufferBindingAccess : BindingType → BufferAccess
  | .uniformBuffer => .uniform
  | .storageBuffer true => .storageRead
  | _ => .storageReadWrite

/-- The access a binding makes to a texture. -/
def textureBindingAccess (ty : BindingType) : TextureAccess :=
  if bindingWrites ty then .storageWrite else .sampled

/-- The checks `validate_groups` makes of one binding. -/
def checkBinding (T : ResourceTable) (e : CommandEncoder) (attachments : List TextureId)
    (vertices : List (Option (BufferId × UInt64))) (index : Option BufferId)
    (resource : BindingResource) (ty : BindingType) : Except Error Unit :=
  match resource with
  | .buffer buffer _ _ => do
      let reference ← T.bufferRef buffer
      e.checkBufferAccess reference (bufferBindingAccess ty)
      failIf (bindingWrites ty = true ∧
          (vertices.any (fun vertex => vertex.any fun bound => bound.1.refEq reference) = true ∨
            index.any (fun bound => bound.refEq reference) = true))
        .resourceAccessConflict
  | .textureView texture view => do
      let reference ← T.textureRef texture
      forEach view.mips fun mip =>
        checkTextureMipAccess T e reference mip (textureBindingAccess ty)
      failIf (attachments.contains reference = true) .attachmentFeedback
  | .texture texture => do
      let reference ← T.textureRef texture
      checkTextureAccess T e reference (textureBindingAccess ty)
      failIf (attachments.contains reference = true) .attachmentFeedback
  | .sampler _ => .ok ()

/-- One binding of `validate_groups`: its checks, and no alias among the earlier
ones when either writes. -/
def useBinding (T : ResourceTable) (alloc : Allocator) (e : CommandEncoder)
    (attachments : List TextureId) (vertices : List (Option (BufferId × UInt64)))
    (index : Option BufferId) (uses : List (BindingResource × Bool))
    (binding : BindingResource × BindingType) : Except Error (List (BindingResource × Bool)) := do
  checkBinding T e attachments vertices index binding.1 binding.2
  failIf (uses.any (fun other => resourceAlias binding.1 other.1 &&
      (bindingWrites binding.2 || other.2)) = true) .resourceAccessConflict
  tryReserve alloc (.uses uses.length)
  pure (uses ++ [(binding.1, bindingWrites binding.2)])

/-- The bindings of a group, with the types the layout declares. -/
def groupBindings (group : BindGroupDesc) (expected : BindGroupLayoutDesc) :
    List (BindingResource × BindingType) :=
  (group.entries.zip expected.entries).map fun (entry, layout) => (entry.resource, layout.ty)

/-- One descriptor set of `validate_groups`. -/
def useGroup (T : ResourceTable) (alloc : Allocator) (e : CommandEncoder)
    (groups : Vector (Option BindGroupId) MAX_BIND_GROUPS) (attachments : List TextureId)
    (vertices : List (Option (BufferId × UInt64))) (index : Option BufferId)
    (uses : List (BindingResource × Bool)) (set : BindGroupLayoutDesc × Nat) :
    Except Error (List (BindingResource × Bool)) :=
  if set.1.entries.isEmpty && groups[set.2]?.join.isNone then
    pure uses
  else do
    let id ← okOr groups[set.2]?.join .bindGroupNotSet
    let group ← T.bindGroupShared id
    failIf (group.layout ≠ set.1) .bindingLayoutMismatch
    (groupBindings group set.1).foldlM
      (useBinding T alloc e attachments vertices index) uses

/-- The keys of one binding. -/
def bindingKeys : BindingResource → List PendingWrite
  | .buffer buffer _ _ => [.buffer buffer]
  | .textureView texture view => view.mips.map (.textureMip texture)
  | .texture texture => [.texture texture]
  | .sampler _ => []

/-- The keys of vertex and index fetches. -/
def fetchKeys (vertices : List (Option (BufferId × UInt64))) (index : Option BufferId) :
    List PendingWrite :=
  (vertices.filterMap id).map (fun vertex => .buffer vertex.1) ++
    index.toList.map .buffer

/-- `validate_groups`: check every bound resource of a layout, and collect what
the draw uses and writes. -/
def validateGroups (T : ResourceTable) (alloc : Allocator) (e : CommandEncoder)
    (layout : PipelineLayoutDesc) (groups : Vector (Option BindGroupId) MAX_BIND_GROUPS)
    (attachments : List TextureId) (vertices : List (Option (BufferId × UInt64)))
    (index : Option BufferId) : Except Error GroupAccesses := do
  let uses ← layout.bindGroups.zipIdx.foldlM
    (useGroup T alloc e groups attachments vertices index) []
  tryReserve alloc .pending
  tryReserve alloc .used
  pure
    { writes := (uses.filter (·.2)).flatMap fun use => bindingKeys use.1
      used := (uses.flatMap fun use => bindingKeys use.1) ++ fetchKeys vertices index }

/-- `record_with_writes`. -/
def recordWithWrites (alloc : Allocator) (command : Command) (accesses : GroupAccesses) :
    Fallible CommandEncoder Error Unit := do
  liftM (tryReserve alloc .pendingWrites)
  push alloc command
  update fun e =>
    let e := e.consumeAccesses accesses.used
    { e with pendingWrites := e.pendingWrites ++ accesses.writes }

end CommandEncoder

end Sgfx
