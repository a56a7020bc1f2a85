import Sgfx.Library.FueledLoops
import Sgfx.Virgl.TextureUploads

/-!
# Chunks of a render pass

A packet of commands has a limited size, so that a pass is submitted as several chunks.
`split_pass` cuts it: programmable draws by an estimate of their bytes, draws of inline vertices by
what room there is for vertices, and draws of persistent buffers by their number.  The checks of
`validate_transport_chunks` come after it.

An `f32` is its bits.  `Allocator` answers every reservation.

## Main Definitions

* `PlannedDraw`, `IrSubmission`, `ExecutionPass`
* `chunkFitsTransport`, `inlineVertexCapacity`, `programmableChunkBytes`
* `appendDraw`
* `Split`, `splitDraw`, `splitPass`
* `validateTransportChunks`, `finishPass`
-/

namespace Sgfx.Virgl.Passes

open Draws TextureUploads

/-- `IrVertex`. -/
structure IrVertex where
  position : Vector F32 4
  secondary : Vector F32 4
  tertiary : Vector F32 2
deriving DecidableEq

/-- `IrDraw`; `more` is the state that no planning reads. -/
structure PlannedDraw (δ : Type) extends IrDraw where
  /-- Where the pipeline of a programmable draw is: `Rc::ptr_eq` compares the places. -/
  pipelinePlace : UInt64
  more : δ

/-- `IrColorAttachment`. -/
structure IrColorAttachment where
  texture : IrTextureSpec
  clear : Option (Vector F32 4)
deriving DecidableEq

/-- `IrSubmission`. -/
structure IrSubmission (δ : Type) where
  clearColor : Option (Vector F32 4)
  additionalColors : List IrColorAttachment
  depthAttachment : Option IrTextureSpec
  depthReadOnly : Bool
  clearDepth : Option F32
  renderArea : IrRect
  vertices : List IrVertex
  draws : List (PlannedDraw δ)
  textureUploads : List IrTextureUpload

/-- `ExecutionPass`. -/
structure ExecutionPass (τ δ : Type) where
  target : τ
  submission : IrSubmission δ

/-! ## Budgets -/

def MAX_IR_VERTICES : Nat := 1440

def IR_COMMAND_TRANSPORT_BYTES : Nat := 64 * 1024

def IR_COMMAND_FIXED_BUDGET : Nat := 6 * 1024

def IR_DRAW_COMMAND_BUDGET : Nat := 256

def IR_INLINE_VERTEX_BYTES : Nat := 10 * 4

def MAX_IR_DRAWS_PER_SUBMISSION : Nat := 64

/-- The bytes of some inline vertices and draws. -/
def transportBytes (vertexCount drawCount : Nat) : Option Nat := do
  let bytes ← checkedMulUsize vertexCount IR_INLINE_VERTEX_BYTES
  let bytes ← checkedAddUsize bytes IR_COMMAND_FIXED_BUDGET
  let drawBytes ← checkedMulUsize drawCount IR_DRAW_COMMAND_BUDGET
  checkedAddUsize bytes drawBytes

/-- `chunk_fits_transport`. -/
def chunkFitsTransport (vertexCount drawCount : Nat) : Bool :=
  (transportBytes vertexCount drawCount).any fun bytes => decide (bytes ≤ IR_COMMAND_TRANSPORT_BYTES)

/-- `inline_vertex_capacity`. -/
def inlineVertexCapacity (vertexCount drawCount : Nat) : Nat :=
  match transportBytes vertexCount drawCount with
  | none => 0
  | some used =>
    min ((IR_COMMAND_TRANSPORT_BYTES - used) / IR_INLINE_VERTEX_BYTES) (MAX_IR_VERTICES - vertexCount)

/-- The words of the constant banks of the two stages. -/
def constantWords (constants : List IrConstantBuffer) : Option (Nat × Nat) :=
  constants.foldlM (fun words constant => do
    let offset ← checkedMulUsize constant.firstRegister.toNat 4
    let stop ← checkedAddUsize offset constant.words.length
    match constant.stage with
    | .vertex => return (max words.1 stop, words.2)
    | .fragment => return (words.1, max words.2 stop)
    | _ => none) (0, 0)

/-- `programmable_draw_bytes`. -/
def programmableDrawBytes (draw : IrProgrammableDraw) : Option Nat := do
  let banks ← constantWords draw.constants
  let words ← checkedAddUsize banks.1 banks.2
  let bytes ← checkedMulUsize words 4
  let bytes ← checkedAddUsize bytes IR_DRAW_COMMAND_BUDGET
  let bytes ← checkedAddUsize bytes (← checkedMulUsize draw.textures.length 160)
  checkedAddUsize bytes (← checkedMulUsize draw.storageBuffers.length 80)

section Chunks

variable {τ δ E : Type}

/-- One turn of the loop of `programmable_chunk_bytes`. -/
def addProgrammableDraw (place : UInt64) (bytes : Nat) (draw : PlannedDraw δ) : Option Nat := do
  let programmable ← draw.programmable
  if place = draw.pipelinePlace then checkedAddUsize bytes (← programmableDrawBytes programmable)
  else none

/-- `programmable_chunk_bytes`. -/
def programmableChunkBytes : List (PlannedDraw δ) → Option Nat
  | [] => none
  | first :: draws => do
    let programmable ← first.programmable
    let bytes ← checkedAddUsize (2 * IR_COMMAND_FIXED_BUDGET + 128)
      (← programmableDrawBytes programmable)
    draws.foldlM (addProgrammableDraw first.pipelinePlace) bytes

/-- Whether the estimate of a chunk is over the budget, or there is none. -/
def overBudget (draws : List (PlannedDraw δ)) : Bool :=
  (programmableChunkBytes draws).all fun bytes => decide (IR_COMMAND_TRANSPORT_BYTES < bytes)

/-! ## Reservations -/

/-- Where planning reserves memory, with what is held there. -/
inductive ReserveSite where
  | colors (additional : Nat)
  | chunks (held : Nat)
  | vertices (held additional : Nat)
  | draws (held : Nat)
deriving DecidableEq, Repr

/-- Whether each reservation succeeds. -/
abbrev Allocator := ReserveSite → Bool

/-- `try_reserve(..).map_err(|_| IrSubmitError::OutOfMemory)`. -/
def tryReserve (alloc : Allocator) (site : ReserveSite) : Except (IrSubmitError E) Unit :=
  failIf (alloc site = false) .outOfMemory

/-! ## Lowering -/

/-- `DecodedDraw`. -/
structure DecodedDraw (δ : Type) where
  vertices : DecodedVertices IrVertex
  pipeline : IrPipelineState
  texture : Option IrTextureSpec
  sampler : Option IrSamplerState
  uniforms : IrUniforms
  scissor : IrRect
  more : δ

/-- The draw that `append_draw` pushes. -/
def DecodedDraw.planned (decoded : DecodedDraw δ) (startVertex vertexCount : Nat)
    (vertexBuffer : Option IrVertexBufferBinding) : PlannedDraw δ where
  drawIndex := 0
  programmable := none
  startVertex := startVertex
  instanceCount := 1
  firstInstance := 0
  vertexBuffers := .replicate 8 none
  vertexCount := vertexCount
  vertexBuffer := vertexBuffer
  pipeline := decoded.pipeline
  texture := decoded.texture
  sampler := decoded.sampler
  uniforms := decoded.uniforms
  scissor := decoded.scissor
  pipelinePlace := 0
  more := decoded.more

/-- `append_draw`. -/
def appendDraw (alloc : Allocator) (submission : IrSubmission δ) (decoded : DecodedDraw δ) :
    Except (IrSubmitError E) (IrSubmission δ) := do
  match decoded.vertices with
  | .inline vertices => do
    let start := submission.vertices.length
    let stop ← okOr (checkedAddUsize start vertices.length) .outOfMemory
    tryReserve alloc (.vertices start vertices.length)
    tryReserve alloc (.draws submission.draws.length)
    return { submission with
      vertices := submission.vertices ++ vertices
      draws := submission.draws ++ [decoded.planned start (stop - start) none] }
  | .persistent binding firstVertex vertexCount => do
    tryReserve alloc (.draws submission.draws.length)
    return { submission with
      draws := submission.draws ++ [decoded.planned firstVertex vertexCount (some binding)] }

/-! ## Splitting -/

/-- The local variables of `split_pass`. -/
structure Split (τ δ : Type) where
  chunks : List (ExecutionPass τ δ)
  chunkVertices : List IrVertex
  chunkDraws : List (PlannedDraw δ)
  textureUploads : List IrTextureUpload
  firstChunk : Bool

/-- The chunk that `push_pass_chunk` makes of some draws: it clears if it is the first. -/
def ExecutionPass.chunk (pass : ExecutionPass τ δ) (vertices : List IrVertex)
    (draws : List (PlannedDraw δ)) (uploads : List IrTextureUpload) (first : Bool) :
    ExecutionPass τ δ where
  target := pass.target
  submission :=
    { clearColor := if first then pass.submission.clearColor else none
      additionalColors := pass.submission.additionalColors.map fun color =>
        { texture := color.texture, clear := if first then color.clear else none }
      depthAttachment := pass.submission.depthAttachment
      depthReadOnly := pass.submission.depthReadOnly
      clearDepth := if first then pass.submission.clearDepth else none
      renderArea := pass.submission.renderArea
      vertices := vertices
      draws := draws
      textureUploads := uploads }

variable (alloc : Allocator) (pass : ExecutionPass τ δ)

/-- `push_pass_chunk`. -/
def pushPassChunk (vertices : List IrVertex) (draws : List (PlannedDraw δ))
    (uploads : List IrTextureUpload) (first : Bool) :
    Fallible (Split τ δ) (IrSubmitError E) Unit := do
  (tryReserve alloc (.colors pass.submission.additionalColors.length) :
    Except (IrSubmitError E) Unit)
  let split ← Fallible.read
  (tryReserve alloc (.chunks split.chunks.length) : Except (IrSubmitError E) Unit)
  Fallible.update fun split =>
    { split with chunks := split.chunks ++ [pass.chunk vertices draws uploads first] }

/-- The flush of the open chunk; `left` is what stays of the uploads after the first one. -/
def flushChunk (left : List IrTextureUpload → List IrTextureUpload) :
    Fallible (Split τ δ) (IrSubmitError E) Unit := do
  let split ← Fallible.read
  Fallible.update fun split =>
    { split with
      chunkVertices := []
      chunkDraws := []
      textureUploads := if split.firstChunk then left split.textureUploads else split.textureUploads }
  pushPassChunk alloc pass split.chunkVertices split.chunkDraws
    (if split.firstChunk then split.textureUploads else []) split.firstChunk
  Fallible.update fun split => { split with firstChunk := false }

/-- `core::mem::take`. -/
def takeUploads (_ : List IrTextureUpload) : List IrTextureUpload := []

/-- `clone`. -/
def cloneUploads (uploads : List IrTextureUpload) : List IrTextureUpload := uploads

/-- `chunk_draws.push(draw)`. -/
def pushDraw (draw : PlannedDraw δ) : Fallible (Split τ δ) (IrSubmitError E) Unit := do
  let split ← Fallible.read
  (tryReserve alloc (.draws split.chunkDraws.length) : Except (IrSubmitError E) Unit)
  Fallible.update fun split => { split with chunkDraws := split.chunkDraws ++ [draw] }

/-- `flush`: whether the open chunk ends before a draw. -/
def flushesBefore (chunkDraws : List (PlannedDraw δ)) (draw : PlannedDraw δ) : Bool :=
  match chunkDraws with
  | [] => false
  | first :: _ =>
    if draw.programmable.isSome then
      decide (MAX_IR_DRAWS_PER_SUBMISSION ≤ chunkDraws.length) || overBudget (chunkDraws ++ [draw])
    else first.programmable.isSome

/-- The piece of an inline draw that goes into the open chunk: `chunk_vertices.extend_from_slice`
and the push of `segment`. -/
def pushSegment (draw : PlannedDraw δ) (sourceStart count : Nat) :
    Fallible (Split τ δ) (IrSubmitError E) Unit := do
  let split ← Fallible.read
  (tryReserve alloc (.vertices split.chunkVertices.length count) : Except (IrSubmitError E) Unit)
  Fallible.update fun split =>
    { split with
      chunkVertices := split.chunkVertices ++ (pass.submission.vertices.drop sourceStart).take count }
  pushDraw alloc { draw with startVertex := split.chunkVertices.length, vertexCount := count }

/-- One turn of the loop over the vertices of an inline draw. -/
def splitInline (draw : PlannedDraw δ) (stop sourceStart : Nat) :
    Fallible (Split τ δ) (IrSubmitError E) Nat := do
  let split ← Fallible.read
  let capacity := inlineVertexCapacity split.chunkVertices.length (split.chunkDraws.length + 1)
  let capacity := capacity - capacity % 3
  if MAX_IR_DRAWS_PER_SUBMISSION ≤ split.chunkDraws.length ∨ capacity = 0 then do
    flushChunk alloc pass takeUploads
    return sourceStart
  else do
    let count := min (stop - sourceStart) capacity
    pushSegment alloc pass draw sourceStart count
    if sourceStart + count < stop then flushChunk alloc pass takeUploads else pure ()
    return sourceStart + count

/-- `end`, the checks of an inline draw before its loop. -/
def inlineEnd (draw : PlannedDraw δ) : Except (IrSubmitError E) Nat := do
  let stop ← okOr (checkedAddUsize draw.startVertex draw.vertexCount) .invalidVertexData
  failIf (pass.submission.vertices.length < stop ∨ draw.vertexCount % 3 ≠ 0) .invalidVertexData
  return stop

/-- The part of an inline draw. -/
def splitInlineDraw (draw : PlannedDraw δ) : Fueled (Split τ δ) (IrSubmitError E) Unit := do
  let stop ← (liftM (inlineEnd pass draw : Except (IrSubmitError E) Nat) :
    Fallible (Split τ δ) (IrSubmitError E) Nat)
  let _ ← Fueled.whileDo (fun sourceStart => decide (sourceStart < stop))
    (fun sourceStart => liftM (splitInline alloc pass draw stop sourceStart :
      Fallible (Split τ δ) (IrSubmitError E) Nat)) draw.startVertex
  return ()

/-- The part of a draw of a persistent buffer. -/
def splitPersistentDraw (draw : PlannedDraw δ) : Fallible (Split τ δ) (IrSubmitError E) Unit := do
  let split ← Fallible.read
  if MAX_IR_DRAWS_PER_SUBMISSION ≤ split.chunkDraws.length ∨
      chunkFitsTransport split.chunkVertices.length (split.chunkDraws.length + 1) = false then
    flushChunk alloc pass cloneUploads
  else pure ()
  pushDraw alloc draw

/-- The flush before a draw. -/
def flushBefore (draw : PlannedDraw δ) : Fallible (Split τ δ) (IrSubmitError E) Unit := do
  let split ← Fallible.read
  if flushesBefore split.chunkDraws draw then flushChunk alloc pass takeUploads else pure ()

/-- One turn of the loop over the draws. -/
def splitDraw (draw : PlannedDraw δ) : Fueled (Split τ δ) (IrSubmitError E) Unit := do
  (flushBefore alloc pass draw : Fallible (Split τ δ) (IrSubmitError E) Unit)
  if draw.programmable.isSome then
    (liftM (pushDraw alloc draw : Fallible (Split τ δ) (IrSubmitError E) Unit))
  else if draw.vertexBuffer.isNone then splitInlineDraw alloc pass draw
  else liftM (splitPersistentDraw alloc pass draw : Fallible (Split τ δ) (IrSubmitError E) Unit)

/-- The last chunk. -/
def splitRest : Fallible (Split τ δ) (IrSubmitError E) (List (ExecutionPass τ δ)) := do
  let split ← Fallible.read
  if split.firstChunk = false ∧ split.chunkVertices.isEmpty = true ∧
      split.chunkDraws.isEmpty = true then
    return split.chunks
  else do
    pushPassChunk alloc pass split.chunkVertices split.chunkDraws
      (if split.firstChunk then split.textureUploads else []) split.firstChunk
    let split ← Fallible.read
    return split.chunks

/-- Before the first draw. -/
def Split.start : Split τ δ where
  chunks := []
  chunkVertices := []
  chunkDraws := []
  textureUploads := pass.submission.textureUploads
  firstChunk := true

/-- The loop over the draws and what follows it. -/
def splitDraws : Fueled (Split τ δ) (IrSubmitError E) (List (ExecutionPass τ δ)) := do
  Fueled.loop pass.submission.draws (splitDraw alloc pass)
  (splitRest alloc pass : Fallible (Split τ δ) (IrSubmitError E) (List (ExecutionPass τ δ)))

/-- `split_pass`, with fuel for its loop. -/
def splitPass (fuel : Nat) : Option (Except (IrSubmitError E) (List (ExecutionPass τ δ))) :=
  (splitDraws alloc pass fuel (Split.start pass)).map Prod.fst

/-! ## Around it -/

/-- `submission_has_clear`. -/
def submissionHasClear (submission : IrSubmission δ) : Bool :=
  submission.clearColor.isSome || submission.clearDepth.isSome ||
    submission.additionalColors.any fun color => color.clear.isSome

/-- `finish_pass`. -/
def finishPass (preservesContents : Bool) (fuel : Nat) :
    Option (Except (IrSubmitError E) (List (ExecutionPass τ δ))) :=
  if pass.submission.draws.isEmpty ∧ submissionHasClear pass.submission = false then
    if preservesContents then some (.ok []) else some (.error .unsupported)
  else splitPass alloc pass fuel

/-- The checks of a draw in `validate_transport_chunks`. -/
def validateDraw (submission : IrSubmission δ) (draw : PlannedDraw δ) :
    Except (IrSubmitError E) Unit := do
  failIf (drawCountValid (draw.programmable.map fun programmable => programmable.pipeline.topology)
    draw.vertexCount = false) .invalidVertexData
  failIf (draw.programmable.isNone ∧ draw.vertexBuffer.isNone ∧
    (checkedAddUsize draw.startVertex draw.vertexCount).all
      (fun stop => decide (submission.vertices.length < stop)) = true) .invalidVertexData

/-- The checks of a chunk in `validate_transport_chunks`. -/
def validateChunk (submission : IrSubmission δ) : Except (IrSubmitError E) Unit := do
  failIf ((submission.draws.isEmpty ∧ submissionHasClear submission = false) ∨
    MAX_IR_VERTICES < submission.vertices.length ∨
    MAX_IR_DRAWS_PER_SUBMISSION < submission.draws.length ∨
    chunkFitsTransport submission.vertices.length submission.draws.length = false ∨
    (1 < submission.draws.length ∧
      submission.draws.head?.any (fun draw => draw.programmable.isSome) = true ∧
      overBudget submission.draws = true)) .invalidVertexData
  forEach submission.draws (validateDraw submission)

/-- `ExecutionEvent`; uploads and copies of textures are not told apart. -/
inductive ExecutionEvent (τ δ η : Type) where
  | pass (pass : ExecutionPass τ δ)
  | other (event : η)

/-- `validate_transport_chunks`. -/
def validateTransportChunks {η : Type} (events : List (ExecutionEvent τ δ η)) :
    Except (IrSubmitError E) Unit :=
  forEach events fun
    | .pass pass => validateChunk pass.submission
    | .other _ => .ok ()

end Chunks

end Sgfx.Virgl.Passes
