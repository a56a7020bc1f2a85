import Sgfx.Abi.BindGroups
import Sgfx.CommandEncoder

/-!
# Commands on the wire

A recording for a plug-in is a row of words.  Every command is a record: a header with its opcode
and the length of the record, and its operands.  Uploads stay where they are; their records hold
the address and the length of the bytes.  A reader resolves identities in the table it is given,
and a pass descriptor is built again by its checking constructors.

## Main Definitions

* `Command.encode` — the record of a command
* `decodeInto` — the operands of a record
* `Storage` — a recording, as commands or as records
* `Iter`, `Iter.next`, `Iter.collect` — the commands of a recording, one after the other
* `Batch`, `fromAbi` — a recording that is handed over

The words of a batch are a value here; their address is not modelled.
-/

namespace Sgfx.Abi

/-! ## Scalars -/

def filterModes : List FilterMode := [.nearest, .linear]

def filterMode : RowCodec FilterMode := enumeration filterModes

def indexFormats : List IndexFormat := [.uint16, .uint32]

def indexFormat : RowCodec IndexFormat := enumeration indexFormats

def bufferAccesses : List BufferAccess :=
  [.copyDestination, .copySource, .vertex, .index, .uniform, .storageRead, .storageReadWrite]

def bufferAccess : RowCodec BufferAccess := enumeration bufferAccesses

def textureAccesses : List TextureAccess :=
  [.copyDestination, .copySource, .sampled, .renderAttachment, .storageWrite]

def textureAccess : RowCodec TextureAccess := enumeration textureAccesses

def storeOps : List StoreOp := [.store, .dontCare]

def storeOp : RowCodec StoreOp := enumeration storeOps

/-- `Codec for i32`. -/
def i32 : RowCodec Int32 where
  put x := u32.put x.toUInt32
  get := do
    let bits ← u32.get
    pure bits.toInt32

/-- `put_floats`: two numbers in a word. -/
def packFloats : List F32 → List UInt64
  | [] => []
  | [a] => [a.bits.toUInt64]
  | a :: b :: rest => (a.bits.toUInt64 ||| b.bits.toUInt64 <<< 32) :: packFloats rest

/-- `get_floats`. -/
def unpackFloats : Nat → Reader UInt64 Error (List F32)
  | 0 => pure []
  | 1 => do
    let w ← word
    pure [⟨w.toUInt32⟩]
  | count + 2 => do
    let w ← word
    let rest ← unpackFloats count
    pure (⟨w.toUInt32⟩ :: ⟨(w >>> 32).toUInt32⟩ :: rest)

/-! ## Values -/

def pixelRect : RowCodec PixelRect where
  put r := u32.put r.x ++ (u32.put r.y ++ (u32.put r.width ++ u32.put r.height))
  get := do
    let x ← u32.get
    let y ← u32.get
    let width ← u32.get
    let height ← u32.get
    liftM (PixelRect.new x y width height)

/-- `Codec for Color`. -/
def color : RowCodec Color where
  put c := packFloats [c.red, c.green, c.blue, c.alpha]
  get := do
    let v ← unpackFloats 4
    liftM (Color.rgba (v.getD 0 .zero) (v.getD 1 .zero) (v.getD 2 .zero) (v.getD 3 .zero))

/-- `Codec for Transform`. -/
def transform : RowCodec Transform where
  put t := packFloats t.columns.toList
  get := do
    let v ← unpackFloats 16
    liftM (Transform.fromColumns (.ofFn fun i => v.getD i .zero))

/-- `Codec for Viewport`. -/
def viewport : RowCodec Viewport where
  put v := packFloats [v.x, v.y, v.width, v.height, v.minDepth, v.maxDepth]
  get := do
    let v ← unpackFloats 6
    liftM (Viewport.new (v.getD 0 .zero) (v.getD 1 .zero) (v.getD 2 .zero) (v.getD 3 .zero)
      (v.getD 4 .zero) (v.getD 5 .zero))

def drawUniforms : RowCodec DrawUniforms where
  put u := transform.put u.transform ++ color.put u.color
  get := do
    let t ← transform.get
    let c ← color.get
    pure ⟨t, c⟩

/-- `Codec for LoadOp`. -/
def loadOp : RowCodec LoadOp where
  put
    | .load => [0]
    | .clear c => [1] ++ color.put c
    | .dontCare => [2]
  get := do
    let tag ← word
    match tag.toNat with
    | 0 => pure .load
    | 1 => do
      let c ← color.get
      pure (.clear c)
    | 2 => pure .dontCare
    | _ => Fallible.fail .invalidValue

/-- `Codec for DepthLoadOp`. -/
def depthLoadOp : RowCodec DepthLoadOp where
  put
    | .load => [0]
    | .clear value => [1] ++ f32.put value
    | .dontCare => [2]
  get := do
    let tag ← word
    match tag.toNat with
    | 0 => pure .load
    | 1 => do
      let value ← f32.get
      pure (.clear value)
    | 2 => pure .dontCare
    | _ => Fallible.fail .invalidValue

theorem emptyAddress_ne : (1 : UInt64) ≠ 0 := by decide

/-- An empty slice; where it points to is of no consequence. -/
def emptySlice : ByteSlice := ⟨1, 0, emptyAddress_ne, by decide⟩

/-- `Span::as_slice` on what `borrowed_bytes` lets through. -/
def spanSlice (data len : UInt64) : Except Error ByteSlice :=
  if h : len.toNat < 2 ^ 63 ∧ (len ≠ 0 → data ≠ 0) then
    if empty : len = 0 then .ok emptySlice else .ok ⟨data, len, h.2 empty, h.1⟩
  else .error .invalidValue

/-- `bytes` and `borrowed_bytes`. -/
def borrowedBytes : RowCodec ByteSlice where
  put s := u64.put s.data ++ u64.put s.len
  get := do
    let data ← u64.get
    let len ← u64.get
    liftM (spanSlice data len)

/-! ## References -/

/-- The words of an identity. -/
def idWords {c : Category} (id : Id c) : List UInt64 := u64.put id.index ++ u64.put id.generation

section References

variable (T : ResourceTable)

/-- A reference to a texture, a buffer or a bind group. -/
def getRef (c : Category) : Reader UInt64 Error (Id c) := do
  let id ← (resourceId (contentsOf T) c).get
  liftM (T.ref id)

/-- A reference to a pipeline, which `program_identity!` resolves as well. -/
def getProgramRef (c : Category) : Reader UInt64 Error (Id c) := do
  let index ← u64.get
  let generation ← if T.abi.legacyProgramIds then pure 0 else u64.get
  let id ← liftM (T.ref (⟨T.id, index, generation⟩ : Id c))
  liftM (T.ref id)

/-- A reference to a sampler, which `identity!` resolves as well. -/
def getSamplerRef : Reader UInt64 Error SamplerId := do
  let index ← u64.get
  let id ← liftM (T.samplerRef ⟨T.id, index⟩)
  liftM (T.samplerRef id)

/-- A reference to a fixed-function pipeline. -/
def getPipelineRef : Reader UInt64 Error RenderPipelineId := do
  let index ← u64.get
  let id ← liftM (T.renderPipelineRef ⟨T.id, index⟩)
  liftM (T.renderPipelineRef id)

end References

/-! ## Render passes -/

def attachmentWords (a : ColorAttachment) : List UInt64 :=
  idWords a.target ++ (loadOp.put a.load ++ storeOp.put a.store)

def depthWords (d : DepthAttachment) : List UInt64 :=
  idWords d.target ++ (depthLoadOp.put d.load ++ (storeOp.put d.store ++ bool.put d.readOnly))

def passWords (d : RenderPassDesc) : List UInt64 :=
  pixelRect.put d.area ++ (usize.put d.colorAttachments.length ++
    (d.colorAttachments.flatMap attachmentWords ++
      (bool.put d.depth.isSome ++ (d.depth.map depthWords).getD [])))

section Passes

variable (T : ResourceTable)

/-- The attachments after the first one. -/
def getColors : Nat → RenderPassDesc → Reader UInt64 Error RenderPassDesc
  | 0, d => pure d
  | count + 1, d => do
    let target ← getRef T .texture
    let loading ← loadOp.get
    let storing ← storeOp.get
    let d ← liftM (d.withColorAttachment T target loading storing)
    getColors count d

/-- The depth attachment. -/
def getDepth (d : RenderPassDesc) : Reader UInt64 Error RenderPassDesc := do
  if ← bool.get then
    let target ← getRef T .texture
    let loading ← depthLoadOp.get
    let storing ← storeOp.get
    let d ← liftM (d.withDepthAttachment T target loading storing)
    if ← bool.get then liftM d.withReadOnlyDepth else pure d
  else pure d

/-- The descriptor of a pass. -/
def getPass : Reader UInt64 Error RenderPassDesc := do
  let area ← pixelRect.get
  let count ← usize.get
  liftM (failIf (count = 0 ∨ MAX_COLOR_ATTACHMENTS < count) Error.invalidDescriptor)
  let target ← getRef T .texture
  let loading ← loadOp.get
  let storing ← storeOp.get
  let d ← liftM (RenderPassDesc.new T target area loading storing)
  let d ← getColors T (count - 1) d
  getDepth T d

end Passes

/-! ## Barriers -/

def barrierWords : ResourceBarrier → List UInt64
  | .global => [3]
  | .buffer buffer before after =>
    [0] ++ (idWords buffer ++ (bufferAccess.put before ++ bufferAccess.put after))
  | .texture texture before after =>
    [1] ++ (idWords texture ++ (textureAccess.put before ++ textureAccess.put after))
  | .textureMip texture mip before after =>
    [2] ++ (idWords texture ++ (u32.put mip ++ (textureAccess.put before ++ textureAccess.put after)))

def getBarrier (T : ResourceTable) : Reader UInt64 Error ResourceBarrier := do
  let tag ← word
  match tag.toNat with
  | 3 => pure .global
  | 0 => do
    let buffer ← getRef T .buffer
    let before ← bufferAccess.get
    let after ← bufferAccess.get
    pure (.buffer buffer before after)
  | 1 => do
    let texture ← getRef T .texture
    let before ← textureAccess.get
    let after ← textureAccess.get
    pure (.texture texture before after)
  | 2 => do
    let texture ← getRef T .texture
    let mip ← u32.get
    let before ← textureAccess.get
    let after ← textureAccess.get
    pure (.textureMip texture mip before after)
  | _ => Fallible.fail .invalidValue

/-! ## Records -/

/-- The opcode of a command. -/
def opcode : Command → UInt32
  | .writeBuffer .. => 1
  | .writeTexture .. => 2
  | .copyTextureToTexture .. => 3
  | .beginRenderPass _ => 4
  | .endRenderPass => 5
  | .setPipeline _ => 6
  | .setVertexBuffer .. => 7
  | .setIndexBuffer .. => 8
  | .setTexture _ => 9
  | .setSampler _ => 10
  | .setUniforms _ => 11
  | .setScissor _ => 12
  | .draw .. => 13
  | .drawIndexed .. => 14
  | .blitTexture .. => 15
  | .copyBufferToBuffer .. => 16
  | .setProgrammablePipeline _ => 17
  | .setBindGroup .. => 18
  | .beginComputePass => 19
  | .endComputePass => 20
  | .setComputePipeline _ => 21
  | .dispatch .. => 22
  | .resourceBarrier _ => 23
  | .setVertexBufferSlot .. => 24
  | .setViewport _ => 25
  | .setPushConstants .. => 26
  | .drawInstanced .. => 27
  | .drawIndexedInstanced .. => 28
  | .setDrawIndex _ => 29

/-- The operands of a command. -/
def operands : Command → List UInt64
  | .writeBuffer buffer offset data => idWords buffer ++ (u64.put offset ++ borrowedBytes.put data)
  | .writeTexture texture write =>
    idWords texture ++ (pixelRect.put write.destination ++ (u32.put write.bytesPerRow ++
      (u32.put write.mipLevel ++ (u32.put write.arrayLayer ++ borrowedBytes.put write.data))))
  | .copyTextureToTexture source sourceRect destination destinationRect =>
    idWords source ++ (pixelRect.put sourceRect ++ (idWords destination ++
      pixelRect.put destinationRect))
  | .beginRenderPass d => passWords d
  | .setPipeline id => u64.put id.index
  | .setVertexBuffer buffer offset => idWords buffer ++ u64.put offset
  | .setIndexBuffer buffer offset format =>
    idWords buffer ++ (u64.put offset ++ indexFormat.put format)
  | .setTexture id => idWords id
  | .setSampler id => u64.put id.index
  | .setUniforms u => drawUniforms.put u
  | .setScissor rect => (option pixelRect).put rect
  | .draw vertexCount firstVertex => u32.put vertexCount ++ u32.put firstVertex
  | .drawIndexed indexCount firstIndex baseVertex =>
    u32.put indexCount ++ (u32.put firstIndex ++ i32.put baseVertex)
  | .blitTexture source sourceMip destination destinationMip sourceRect destinationRect filter
      flips =>
    idWords source ++ (u32.put sourceMip ++ (idWords destination ++ (u32.put destinationMip ++
      (pixelRect.put sourceRect ++ (pixelRect.put destinationRect ++ (filterMode.put filter ++
        (bool.put flips.1 ++ bool.put flips.2)))))))
  | .copyBufferToBuffer source sourceOffset destination destinationOffset size =>
    idWords source ++ (u64.put sourceOffset ++ (idWords destination ++
      (u64.put destinationOffset ++ u64.put size)))
  | .setProgrammablePipeline id => idWords id
  | .setBindGroup index group => u32.put index ++ idWords group
  | .setComputePipeline id => idWords id
  | .dispatch x y z => u32.put x ++ (u32.put y ++ u32.put z)
  | .resourceBarrier barrier => barrierWords barrier
  | .setVertexBufferSlot slot buffer offset => u32.put slot ++ (idWords buffer ++ u64.put offset)
  | .setViewport v => viewport.put v
  | .setPushConstants stages offset data =>
    shaderStages.put stages ++ (u32.put offset ++ borrowedBytes.put data)
  | .drawInstanced vertexCount firstVertex instanceCount firstInstance =>
    u32.put vertexCount ++ (u32.put firstVertex ++ (u32.put instanceCount ++
      u32.put firstInstance))
  | .drawIndexedInstanced indexCount firstIndex baseVertex instanceCount firstInstance =>
    u32.put indexCount ++ (u32.put firstIndex ++ (i32.put baseVertex ++
      (u32.put instanceCount ++ u32.put firstInstance)))
  | .setDrawIndex index => u32.put index
  | .endRenderPass | .beginComputePass | .endComputePass => []

/-- `encode`: the header, with the length of the record above its opcode, and the operands. -/
def encode (c : Command) : List UInt64 :=
  ((opcode c).toUInt64 ||| (UInt64.ofNat ((operands c).length + 1) <<< 32)) :: operands c

section Decoding

variable (T : ResourceTable)

/-- `decode_resource_command`. -/
def decodeResourceCommand (opcode : UInt32) : Reader UInt64 Error Command :=
  match opcode.toNat with
  | 1 => do
    let buffer ← getRef T .buffer
    let offset ← u64.get
    let data ← borrowedBytes.get
    pure (.writeBuffer buffer offset data)
  | 2 => do
    let texture ← getRef T .texture
    let destination ← pixelRect.get
    let stride ← u32.get
    let mip ← u32.get
    let layer ← u32.get
    let data ← borrowedBytes.get
    let write ← liftM (TextureWrite.new destination stride data mip layer)
    pure (.writeTexture texture write)
  | 3 => do
    let source ← getRef T .texture
    let sourceRect ← pixelRect.get
    let destination ← getRef T .texture
    let destinationRect ← pixelRect.get
    pure (.copyTextureToTexture source sourceRect destination destinationRect)
  | 4 => do
    let d ← getPass T
    pure (.beginRenderPass d)
  | 6 => do
    let id ← getPipelineRef T
    pure (.setPipeline id)
  | 7 => do
    let buffer ← getRef T .buffer
    let offset ← u64.get
    pure (.setVertexBuffer buffer offset)
  | 8 => do
    let buffer ← getRef T .buffer
    let offset ← u64.get
    let format ← indexFormat.get
    pure (.setIndexBuffer buffer offset format)
  | 9 => do
    let id ← getRef T .texture
    pure (.setTexture id)
  | 10 => do
    let id ← getSamplerRef T
    pure (.setSampler id)
  | 15 => do
    let source ← getRef T .texture
    let sourceMip ← u32.get
    let destination ← getRef T .texture
    let destinationMip ← u32.get
    let sourceRect ← pixelRect.get
    let destinationRect ← pixelRect.get
    let filter ← filterMode.get
    let flipX ← bool.get
    let flipY ← bool.get
    pure (.blitTexture source sourceMip destination destinationMip sourceRect destinationRect filter
      (flipX, flipY))
  | 16 => do
    let source ← getRef T .buffer
    let sourceOffset ← u64.get
    let destination ← getRef T .buffer
    let destinationOffset ← u64.get
    let size ← u64.get
    pure (.copyBufferToBuffer source sourceOffset destination destinationOffset size)
  | 17 => do
    let id ← getProgramRef T .programmablePipeline
    pure (.setProgrammablePipeline id)
  | 18 => do
    let index ← u32.get
    let group ← getRef T .bindGroup
    pure (.setBindGroup index group)
  | 21 => do
    let id ← getProgramRef T .computePipeline
    pure (.setComputePipeline id)
  | 23 => do
    let barrier ← getBarrier T
    pure (.resourceBarrier barrier)
  | 24 => do
    let slot ← u32.get
    let buffer ← getRef T .buffer
    let offset ← u64.get
    pure (.setVertexBufferSlot slot buffer offset)
  | 26 => do
    let stages ← shaderStages.get
    let offset ← u32.get
    let data ← borrowedBytes.get
    pure (.setPushConstants stages offset data)
  | _ => Fallible.fail .invalidDescriptor

/-- `decode_into`. -/
def decodeInto (opcode : UInt32) : Reader UInt64 Error Command :=
  match opcode.toNat with
  | 5 => pure .endRenderPass
  | 29 => do
    let index ← u32.get
    pure (.setDrawIndex index)
  | 11 => do
    let uniforms ← drawUniforms.get
    pure (.setUniforms uniforms)
  | 12 => do
    let rect ← (option pixelRect).get
    pure (.setScissor rect)
  | 13 => do
    let vertexCount ← u32.get
    let firstVertex ← u32.get
    pure (.draw vertexCount firstVertex)
  | 14 => do
    let indexCount ← u32.get
    let firstIndex ← u32.get
    let baseVertex ← i32.get
    pure (.drawIndexed indexCount firstIndex baseVertex)
  | 19 => pure .beginComputePass
  | 20 => pure .endComputePass
  | 22 => do
    let x ← u32.get
    let y ← u32.get
    let z ← u32.get
    pure (.dispatch x y z)
  | 25 => do
    let v ← viewport.get
    pure (.setViewport v)
  | 27 => do
    let vertexCount ← u32.get
    let firstVertex ← u32.get
    let instanceCount ← u32.get
    let firstInstance ← u32.get
    pure (.drawInstanced vertexCount firstVertex instanceCount firstInstance)
  | 28 => do
    let indexCount ← u32.get
    let firstIndex ← u32.get
    let baseVertex ← i32.get
    let instanceCount ← u32.get
    let firstInstance ← u32.get
    pure (.drawIndexedInstanced indexCount firstIndex baseVertex instanceCount firstInstance)
  | _ => decodeResourceCommand T opcode

end Decoding

/-! ## Recordings -/

/-- `MAX_WORDS`. -/
def MAX_WORDS : Nat := 64

/-- The record at the front: its opcode and its operands. -/
def readRecord : Reader UInt64 Error (UInt32 × List UInt64) := do
  let header ← word
  let count := (header >>> 32).toNat
  liftM (failIf (count = 0 ∨ MAX_WORDS < count) Error.invalidDescriptor)
  let row ← Reader.take (count - 1) Error.invalidDescriptor
  pure (header.toUInt32, row)

/-- `Iter::Abi`: the words that are left, and the number of commands. -/
structure Iter where
  words : List UInt64
  remaining : Nat
deriving DecidableEq

/-- The command of the next record. -/
def nextCommand (T : ResourceTable) : Reader UInt64 Error Command := do
  let (opcode, row) ← readRecord
  liftM (decodeWhole (decodeInto T opcode) row)

/-- `read_next`: after an error nothing is left. -/
def Iter.next (T : ResourceTable) : Fallible Iter Error (Option Command) := fun it =>
  match it.remaining with
  | 0 => if it.words = [] then (.ok none, it) else (.error .invalidDescriptor, ⟨[], 0⟩)
  | remaining + 1 =>
    match nextCommand T it.words with
    | (.ok c, rest) => (.ok (some c), ⟨rest, remaining⟩)
    | (.error e, _) => (.error e, ⟨[], 0⟩)

/-- `collect`: the commands up to the end, or the first error. -/
def Iter.collect (T : ResourceTable) (it : Iter) : Except Error (List Command) :=
  decodeWhole ((nextCommand T).repeated it.remaining) it.words

/-- `Storage`; the records of a borrowed recording are another library's. -/
inductive Storage
  | rust (commands : List Command)
  | abi (words : List UInt64) (count : Nat)
  | borrowed (words : List UInt64) (count : Nat)
deriving DecidableEq

namespace Storage

/-- `Storage::new`. -/
def new (T : ResourceTable) : Storage := if T.abi.enabled then .abi [] 0 else .rust []

/-- `Storage::len`. -/
def len : Storage → Nat
  | rust commands => commands.length
  | abi _ count | borrowed _ count => count

/-- `Storage::push`, which panics on a borrowed recording. -/
def push (c : Command) : Storage → Option Storage
  | rust commands => some (rust (commands ++ [c]))
  | abi words count => some (abi (words ++ encode c) (count + 1))
  | borrowed .. => none

/-- `Storage::iter`, to its end. -/
def read (T : ResourceTable) : Storage → Except Error (List Command)
  | rust commands => .ok commands
  | abi words count | borrowed words count => Iter.collect T ⟨words, count⟩

end Storage

/-- The commands that `has_compute_commands` looks for. -/
def isCompute : Command → Bool
  | .beginComputePass | .endComputePass | .setComputePipeline _ | .dispatch .. => true
  | _ => false

/-- One turn of `scan_compute`: whether the record is a compute command. -/
def scanRecord : Reader UInt64 Error Bool := do
  let header ← word
  let length := (header >>> 32).toNat
  let opcode := header.toUInt32
  liftM (failIf (length = 0 ∨ MAX_WORDS < length ∨ ¬ (1 ≤ opcode ∧ opcode ≤ 29))
    Error.invalidDescriptor)
  let _ ← Reader.take (length - 1) Error.invalidDescriptor
  pure (decide (19 ≤ opcode) && decide (opcode ≤ 22))

/-- `scan_compute`. -/
def scanCompute (words : List UInt64) (count : Nat) : Except Error Bool := do
  let found ← decodeWhole (scanRecord.repeated count) words
  pure (found.any id)

namespace Storage

/-- `Storage::has_compute_commands`. -/
def hasComputeCommands : Storage → Except Error Bool
  | rust commands => .ok (commands.any isCompute)
  | abi words count | borrowed words count => scanCompute words count

end Storage

/-! ## Batches -/

/-- `Batch`: what is handed to a plug-in. -/
structure Batch where
  table : UInt64
  words : List UInt64
  count : Nat
deriving DecidableEq

/-- `Storage::batch`. -/
def Storage.batch (table : UInt64) : Storage → Option Batch
  | rust _ => none
  | abi words count | borrowed words count => some ⟨table, words, count⟩

/-- `CommandBuffer::from_abi`. -/
def fromAbi (sourceTable : UInt64) (batch : Batch) : Except Error Storage := do
  failIf (batch.table ≠ sourceTable) .resourceTableMismatch
  failIf (MAX_COMMANDS < batch.count ∨ MAX_COMMANDS * MAX_WORDS < batch.words.length)
    .invalidDescriptor
  pure (.borrowed batch.words batch.count)

end Sgfx.Abi
