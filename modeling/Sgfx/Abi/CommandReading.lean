import Sgfx.Abi.Commands
import Sgfx.Abi.MirrorViews

/-!
# Reading commands back

A record is read as its command was written, except that the references are those of the table
that reads it.  What a table makes of a command is said once, by `resolve`: it resolves every
reference and builds pass descriptors anew.  The reader of a recording does nothing else, and it
stops at the first command that does not resolve.

## Main Definitions

* `own` — an identity of the reading table
* `rebuildPass`, `resolveBarrier`, `resolve`

## Main Results

* `decodeInto_answers` — one record
* `read_records` — a whole recording
-/

namespace Sgfx

/-- The slice that is read where this one was written. -/
def ByteSlice.imported (s : ByteSlice) : ByteSlice := if s.len = 0 then Abi.emptySlice else s

namespace Abi

/-! ## What a table makes of a command -/

section Resolving

variable (T : ResourceTable)

/-- The identity of the table itself, if it is live. -/
def own {c : Category} (id : Id c) : Except Error (Id c) := T.ref (id.retarget T.id)

/-- The attachments after the first one. -/
def rebuildColors : List ColorAttachment → RenderPassDesc → Except Error RenderPassDesc
  | [], d => .ok d
  | a :: rest, d => do
    let target ← own T a.target
    let d ← d.withColorAttachment T target a.load a.store
    rebuildColors rest d

def rebuildDepth (d : RenderPassDesc) : Option DepthAttachment → Except Error RenderPassDesc
  | none => .ok d
  | some a => do
    let target ← own T a.target
    let d ← d.withDepthAttachment T target a.load a.store
    if a.readOnly then d.withReadOnlyDepth else .ok d

/-- The descriptor, from its constructors. -/
def rebuildPass (d : RenderPassDesc) : Except Error RenderPassDesc := do
  let target ← own T d.target
  let first ← RenderPassDesc.new T target d.area d.load d.store
  let colors ← rebuildColors T d.extraColors first
  rebuildDepth T colors d.depth

def resolveBarrier : ResourceBarrier → Except Error ResourceBarrier
  | .global => .ok .global
  | .buffer buffer before after => do
    let buffer ← own T buffer
    .ok (.buffer buffer before after)
  | .texture texture before after => do
    let texture ← own T texture
    .ok (.texture texture before after)
  | .textureMip texture mip before after => do
    let texture ← own T texture
    .ok (.textureMip texture mip before after)

/-- What the table makes of a command. -/
def resolve : Command → Except Error Command
  | .writeBuffer buffer offset data => do
    let buffer ← own T buffer
    .ok (.writeBuffer buffer offset data.imported)
  | .writeTexture texture write => do
    let texture ← own T texture
    .ok (.writeTexture texture { write with data := write.data.imported })
  | .copyTextureToTexture source sourceRect destination destinationRect => do
    let source ← own T source
    let destination ← own T destination
    .ok (.copyTextureToTexture source sourceRect destination destinationRect)
  | .beginRenderPass d => do
    let d ← rebuildPass T d
    .ok (.beginRenderPass d)
  | .setPipeline id => do
    let id ← T.renderPipelineRef (id.retarget T.id)
    .ok (.setPipeline id)
  | .setVertexBuffer buffer offset => do
    let buffer ← own T buffer
    .ok (.setVertexBuffer buffer offset)
  | .setVertexBufferSlot slot buffer offset => do
    let buffer ← own T buffer
    .ok (.setVertexBufferSlot slot buffer offset)
  | .setIndexBuffer buffer offset format => do
    let buffer ← own T buffer
    .ok (.setIndexBuffer buffer offset format)
  | .setTexture id => do
    let id ← own T id
    .ok (.setTexture id)
  | .setSampler id => do
    let id ← T.samplerRef (id.retarget T.id)
    .ok (.setSampler id)
  | .blitTexture source sourceMip destination destinationMip sourceRect destinationRect filter
      flips => do
    let source ← own T source
    let destination ← own T destination
    .ok (.blitTexture source sourceMip destination destinationMip sourceRect destinationRect
      filter flips)
  | .copyBufferToBuffer source sourceOffset destination destinationOffset size => do
    let source ← own T source
    let destination ← own T destination
    .ok (.copyBufferToBuffer source sourceOffset destination destinationOffset size)
  | .setProgrammablePipeline id => do
    let id ← own T id
    .ok (.setProgrammablePipeline id)
  | .setBindGroup index group => do
    let group ← own T group
    .ok (.setBindGroup index group)
  | .setComputePipeline id => do
    let id ← own T id
    .ok (.setComputePipeline id)
  | .resourceBarrier barrier => do
    let barrier ← resolveBarrier T barrier
    .ok (.resourceBarrier barrier)
  | .setPushConstants stages offset data => .ok (.setPushConstants stages offset data.imported)
  | c => .ok c

end Resolving

/-! ## Scalars -/

theorem filterMode_readsBack (mode : FilterMode) : filterMode.ReadsBack mode :=
  enumeration_readsBack (by cases mode <;> decide) (by decide)

theorem indexFormat_readsBack (format : IndexFormat) : indexFormat.ReadsBack format :=
  enumeration_readsBack (by cases format <;> decide) (by decide)

theorem bufferAccess_readsBack (access : BufferAccess) : bufferAccess.ReadsBack access :=
  enumeration_readsBack (by cases access <;> decide) (by decide)

theorem textureAccess_readsBack (access : TextureAccess) : textureAccess.ReadsBack access :=
  enumeration_readsBack (by cases access <;> decide) (by decide)

theorem storeOp_readsBack (op : StoreOp) : storeOp.ReadsBack op :=
  enumeration_readsBack (by cases op <;> decide) (by decide)

theorem i32_readsBack (x : Int32) : i32.ReadsBack x :=
  (u32_readsBack x.toUInt32).bind_pure (Int32.toInt32_toUInt32 x)

/-! ### Two numbers in a word -/

theorem packed_low (a b : UInt32) : (a.toUInt64 ||| b.toUInt64 <<< 32).toUInt32 = a := by
  apply UInt32.eq_of_toBitVec_eq
  ext i hi
  simp

theorem packed_high (a b : UInt32) : (a.toUInt64 ||| b.toUInt64 <<< 32) >>> 32 = b.toUInt64 := by
  apply UInt64.eq_of_toBitVec_eq
  ext i hi
  by_cases low : i < 32
  · have inside : 32 + i < 64 := by omega
    simp [inside]
  · -- Above the upper number there is nothing, in the word or in the number.
    have outside : ¬ 32 + i < 64 := by omega
    have above : b.toBitVec.getLsbD i = false := BitVec.getLsbD_of_ge _ _ (by omega)
    simp [outside, above]

theorem unpackFloats_reads (xs : List F32) :
    Reads (unpackFloats xs.length) (packFloats xs) xs := by
  induction xs using packFloats.induct with
  | case1 => exact .pure []
  | case2 a =>
    refine (word_reads a.bits.toUInt64).bind_pure ?_
    rw [UInt32.toUInt32_toUInt64]
  | case3 a b rest ih =>
    show Reads _ ([_] ++ packFloats rest) _
    refine (word_reads _).bind (ih.bind_pure ?_)
    rw [packed_low, packed_high, UInt32.toUInt32_toUInt64]

/-! ## Values -/

theorem pixelRect_readsBack (r : PixelRect) : pixelRect.ReadsBack r := by
  refine Reads.bind (u32_readsBack r.x) (Reads.bind (u32_readsBack r.y) ?_)
  exact Reads.bind (u32_readsBack r.width) (Reads.bind_lift (u32_readsBack r.height) r.new_self)

theorem color_readsBack (c : Color) : color.ReadsBack c := by
  have numbers : Reads (unpackFloats 4) (packFloats [c.red, c.green, c.blue, c.alpha])
      [c.red, c.green, c.blue, c.alpha] := unpackFloats_reads [c.red, c.green, c.blue, c.alpha]
  exact numbers.bind_lift (dif_pos c.finite)

theorem transform_readsBack (t : Transform) : transform.ReadsBack t := by
  have numbers : Reads (unpackFloats 16) (packFloats t.columns.toList) t.columns.toList := by
    have reads := unpackFloats_reads t.columns.toList
    rwa [Vector.length_toList] at reads
  refine numbers.bind_lift ?_
  have same : (Vector.ofFn fun i : Fin 16 => t.columns.toList.getD i .zero) = t.columns := by
    ext i hi
    simp
  rw [same]
  exact dif_pos t.finite

theorem viewport_readsBack (v : Viewport) : viewport.ReadsBack v := by
  have numbers : Reads (unpackFloats 6)
      (packFloats [v.x, v.y, v.width, v.height, v.minDepth, v.maxDepth])
      [v.x, v.y, v.width, v.height, v.minDepth, v.maxDepth] :=
    unpackFloats_reads [v.x, v.y, v.width, v.height, v.minDepth, v.maxDepth]
  exact numbers.bind_lift (dif_pos v.valid)

theorem drawUniforms_readsBack (u : DrawUniforms) : drawUniforms.ReadsBack u :=
  Reads.bind (transform_readsBack u.transform) (Reads.bind_pure (color_readsBack u.color) rfl)

theorem loadOp_readsBack (op : LoadOp) : loadOp.ReadsBack op := by
  cases op with
  | load => exact (word_reads 0).bind (.pure _)
  | clear c => exact (word_reads 1).bind (Reads.bind_pure (color_readsBack c) rfl)
  | dontCare => exact (word_reads 2).bind (.pure _)

theorem depthLoadOp_readsBack (op : DepthLoadOp) : depthLoadOp.ReadsBack op := by
  cases op with
  | load => exact (word_reads 0).bind (.pure _)
  | clear value => exact (word_reads 1).bind (Reads.bind_pure (f32_readsBack value) rfl)
  | dontCare => exact (word_reads 2).bind (.pure _)

theorem borrowedBytes_reads (s : ByteSlice) :
    Reads borrowedBytes.get (borrowedBytes.put s) s.imported := by
  refine Reads.bind (u64_readsBack s.data) (Reads.bind_lift (u64_readsBack s.len) ?_)
  unfold spanSlice ByteSlice.imported
  rw [dif_pos ⟨s.len_le, fun _ => s.nonNull⟩]
  split <;> rfl

/-! ## References -/

section Decoding

variable {T : ResourceTable}

theorem getRef_answers {c : Category} (id : Id c) : Answers (getRef T c) (idWords id) (own T id) :=
  Answers.bind_lift (x := .ok _) (resourceId_reads (K := contentsOf T) id)

/-- A reference that is resolved resolves again. -/
theorem ref_bind_ref {c : Category} (id : Id c) :
    (T.ref id >>= fun id => T.ref id) = T.ref id := by
  cases outcome : T.ref id with
  | error e => rfl
  | ok id' =>
    obtain ⟨rfl, -⟩ := ResourceTable.ref_eq_ok.mp outcome
    exact outcome

theorem getProgramRef_answers (newer : T.abi.legacyProgramIds = false) {c : Category} (id : Id c) :
    Answers (getProgramRef T c) (idWords id) (own T id) := by
  unfold getProgramRef own
  rw [newer, ← ref_bind_ref]
  refine Reads.bind_answers (u64_readsBack id.index) ?_
  exact Reads.bind_answers_last (u64_readsBack id.generation) (.lift_bind fun id' _ => .lift _)

theorem samplerRef_bind_samplerRef (id : SamplerId) :
    (T.samplerRef id >>= fun id => T.samplerRef id) = T.samplerRef id := by
  unfold ResourceTable.samplerRef
  cases outcome : T.sampler id with
  | error e => rfl
  | ok d => exact congrArg (Except.map fun _ => id) outcome

theorem getSamplerRef_answers (id : SamplerId) :
    Answers (getSamplerRef T) (u64.put id.index) (T.samplerRef (id.retarget T.id)) := by
  rw [← samplerRef_bind_samplerRef]
  exact Reads.bind_answers_last (u64_readsBack id.index) (.lift_bind fun id' _ => .lift _)

theorem pipelineRef_bind_pipelineRef (id : RenderPipelineId) :
    (T.renderPipelineRef id >>= fun id => T.renderPipelineRef id) = T.renderPipelineRef id := by
  unfold ResourceTable.renderPipelineRef
  cases outcome : T.renderPipeline id with
  | error e => rfl
  | ok d => exact congrArg (Except.map fun _ => id) outcome

theorem getPipelineRef_answers (id : RenderPipelineId) :
    Answers (getPipelineRef T) (u64.put id.index) (T.renderPipelineRef (id.retarget T.id)) := by
  rw [← pipelineRef_bind_pipelineRef]
  exact Reads.bind_answers_last (u64_readsBack id.index) (.lift_bind fun id' _ => .lift _)

/-! ## Passes and barriers -/

theorem getColors_answers (attachments : List ColorAttachment) (d : RenderPassDesc) :
    Answers (getColors T attachments.length d) (attachments.flatMap attachmentWords)
      (rebuildColors T attachments d) := by
  induction attachments generalizing d with
  | nil => exact .pure d
  | cons a rest ih =>
    rw [List.flatMap_cons, attachmentWords, List.append_assoc, List.append_assoc]
    refine (getRef_answers a.target).bind fun target _ => ?_
    refine Reads.bind_answers (loadOp_readsBack a.load) ?_
    refine Reads.bind_answers (storeOp_readsBack a.store) ?_
    exact .lift_bind fun d' _ => ih d'

theorem getDepth_answers (depth : Option DepthAttachment) (d : RenderPassDesc) :
    Answers (getDepth T d) (bool.put depth.isSome ++ (depth.map depthWords).getD [])
      (rebuildDepth T d depth) := by
  cases depth with
  | none => exact Reads.bind_answers (bool_readsBack false) (.pure d)
  | some a =>
    refine Reads.bind_answers (bool_readsBack true) ?_
    refine (getRef_answers a.target).bind fun target _ => ?_
    refine Reads.bind_answers (depthLoadOp_readsBack a.load) ?_
    refine Reads.bind_answers (storeOp_readsBack a.store) ?_
    refine .lift_bind fun d' _ => Reads.bind_answers_last (bool_readsBack a.readOnly) ?_
    cases a.readOnly with
    | false => exact .pure d'
    | true => exact .lift _

theorem getPass_answers (d : RenderPassDesc) :
    Answers (getPass T) (passWords d) (rebuildPass T d) := by
  have extra := d.extra_le
  have length : d.colorAttachments.length = d.extraColors.length + 1 := rfl
  have fits : failIf (d.colorAttachments.length = 0 ∨
      MAX_COLOR_ATTACHMENTS < d.colorAttachments.length) Error.invalidDescriptor = .ok () := by
    rw [failIf_eq_ok, length]
    omega
  have short : d.colorAttachments.length < 2 ^ 64 := by
    rw [length]
    unfold MAX_COLOR_ATTACHMENTS at extra
    omega
  refine Reads.bind_answers (pixelRect_readsBack d.area) ?_
  refine Reads.bind_answers (usize_readsBack short) ?_
  refine .passed fits ?_
  -- The first attachment makes the descriptor, the others are added to it.
  show Answers _ ((attachmentWords ⟨d.target, d.load, d.store⟩ ++
    d.extraColors.flatMap attachmentWords) ++ _) _
  rw [attachmentWords, List.append_assoc, List.append_assoc, List.append_assoc]
  refine (getRef_answers d.target).bind fun target _ => ?_
  refine Reads.bind_answers (loadOp_readsBack d.load) ?_
  refine Reads.bind_answers (storeOp_readsBack d.store) ?_
  refine .lift_bind fun first _ => ?_
  exact (getColors_answers d.extraColors first).bind fun colors _ => getDepth_answers d.depth colors

theorem getBarrier_answers (barrier : ResourceBarrier) :
    Answers (getBarrier T) (barrierWords barrier) (resolveBarrier T barrier) := by
  cases barrier with
  | global => exact Reads.bind_answers_last (word_reads 3) (.pure _)
  | buffer id before after =>
    refine Reads.bind_answers (word_reads 0) ((getRef_answers id).bind fun buffer _ => ?_)
    exact Reads.bind (bufferAccess_readsBack before)
      (Reads.bind_pure (bufferAccess_readsBack after) rfl)
  | texture id before after =>
    refine Reads.bind_answers (word_reads 1) ((getRef_answers id).bind fun texture _ => ?_)
    exact Reads.bind (textureAccess_readsBack before)
      (Reads.bind_pure (textureAccess_readsBack after) rfl)
  | textureMip id mip before after =>
    refine Reads.bind_answers (word_reads 2) ((getRef_answers id).bind fun texture _ => ?_)
    exact Reads.bind (u32_readsBack mip) (Reads.bind (textureAccess_readsBack before)
      (Reads.bind_pure (textureAccess_readsBack after) rfl))

/-! ## Commands -/

/-- The operands of a record are read as what the table makes of its command. -/
theorem decodeInto_answers (newer : T.abi.legacyProgramIds = false) (c : Command) :
    Answers (decodeInto T (opcode c)) (operands c) (resolve T c) := by
  cases c with
  | blitTexture source sourceMip destination destinationMip sourceRect destinationRect filter flips =>
    refine (getRef_answers source).bind fun source _ => ?_
    refine Reads.bind_answers (u32_readsBack sourceMip) ?_
    refine (getRef_answers destination).bind fun destination _ => ?_
    refine Reads.bind (u32_readsBack destinationMip) (Reads.bind (pixelRect_readsBack sourceRect) ?_)
    refine Reads.bind (pixelRect_readsBack destinationRect) ?_
    refine Reads.bind (filterMode_readsBack filter) (Reads.bind (bool_readsBack flips.1) ?_)
    exact Reads.bind_pure (bool_readsBack flips.2) rfl
  | copyBufferToBuffer source sourceOffset destination destinationOffset size =>
    refine (getRef_answers source).bind fun source _ => ?_
    refine Reads.bind_answers (u64_readsBack sourceOffset) ?_
    refine (getRef_answers destination).bind fun destination _ => ?_
    exact Reads.bind (u64_readsBack destinationOffset) (Reads.bind_pure (u64_readsBack size) rfl)
  | setProgrammablePipeline id =>
    exact (getProgramRef_answers newer id).bind_pure
  | setBindGroup index group =>
    exact Reads.bind_answers (u32_readsBack index) (getRef_answers group).bind_pure
  | beginComputePass | endComputePass | endRenderPass => exact .pure _
  | setComputePipeline id => exact (getProgramRef_answers newer id).bind_pure
  | dispatch x y z =>
    exact Reads.bind (u32_readsBack x) (Reads.bind (u32_readsBack y)
      (Reads.bind_pure (u32_readsBack z) rfl))
  | resourceBarrier barrier => exact (getBarrier_answers barrier).bind_pure
  | writeBuffer buffer offset data =>
    refine (getRef_answers buffer).bind fun buffer _ => ?_
    exact Reads.bind (u64_readsBack offset) ((borrowedBytes_reads data).bind_pure rfl)
  | writeTexture texture write =>
    refine (getRef_answers texture).bind fun texture _ => ?_
    refine Reads.bind (pixelRect_readsBack write.destination) ?_
    refine Reads.bind (u32_readsBack write.bytesPerRow) ?_
    refine Reads.bind (u32_readsBack write.mipLevel) ?_
    refine Reads.bind (u32_readsBack write.arrayLayer) ?_
    have data := borrowedBytes_reads write.data
    rw [← List.append_nil (borrowedBytes.put write.data)]
    exact data.bind (.lift_bind (dif_pos write.stride_ne) (.pure _))
  | copyTextureToTexture source sourceRect destination destinationRect =>
    refine (getRef_answers source).bind fun source _ => ?_
    refine Reads.bind_answers (pixelRect_readsBack sourceRect) ?_
    refine (getRef_answers destination).bind fun destination _ => ?_
    exact Reads.bind_pure (pixelRect_readsBack destinationRect) rfl
  | beginRenderPass d => exact (getPass_answers d).bind_pure
  | setPipeline id => exact (getPipelineRef_answers id).bind_pure
  | setVertexBuffer buffer offset =>
    refine (getRef_answers buffer).bind fun buffer _ => ?_
    exact Reads.bind_pure (u64_readsBack offset) rfl
  | setVertexBufferSlot slot buffer offset =>
    refine Reads.bind_answers (u32_readsBack slot) ?_
    refine (getRef_answers buffer).bind fun buffer _ => ?_
    exact Reads.bind_pure (u64_readsBack offset) rfl
  | setIndexBuffer buffer offset format =>
    refine (getRef_answers buffer).bind fun buffer _ => ?_
    exact Reads.bind (u64_readsBack offset) (Reads.bind_pure (indexFormat_readsBack format) rfl)
  | setTexture id => exact (getRef_answers id).bind_pure
  | setSampler id => exact (getSamplerRef_answers id).bind_pure
  | setUniforms u => exact Reads.bind_pure (drawUniforms_readsBack u) rfl
  | setDrawIndex index => exact Reads.bind_pure (u32_readsBack index) rfl
  | setScissor rect =>
    have read : (option pixelRect).ReadsBack rect :=
      option_readsBack fun r _ => pixelRect_readsBack r
    exact Reads.bind_pure read rfl
  | setViewport v => exact Reads.bind_pure (viewport_readsBack v) rfl
  | setPushConstants stages offset data =>
    refine Reads.bind (shaderStages_readsBack stages) (Reads.bind (u32_readsBack offset) ?_)
    exact (borrowedBytes_reads data).bind_pure rfl
  | draw vertexCount firstVertex =>
    exact Reads.bind (u32_readsBack vertexCount) (Reads.bind_pure (u32_readsBack firstVertex) rfl)
  | drawInstanced vertexCount firstVertex instanceCount firstInstance =>
    refine Reads.bind (u32_readsBack vertexCount) (Reads.bind (u32_readsBack firstVertex) ?_)
    exact Reads.bind (u32_readsBack instanceCount) (Reads.bind_pure (u32_readsBack firstInstance) rfl)
  | drawIndexedInstanced indexCount firstIndex baseVertex instanceCount firstInstance =>
    refine Reads.bind (u32_readsBack indexCount) (Reads.bind (u32_readsBack firstIndex) ?_)
    refine Reads.bind (i32_readsBack baseVertex) (Reads.bind (u32_readsBack instanceCount) ?_)
    exact Reads.bind_pure (u32_readsBack firstInstance) rfl
  | drawIndexed indexCount firstIndex baseVertex =>
    refine Reads.bind (u32_readsBack indexCount) (Reads.bind (u32_readsBack firstIndex) ?_)
    exact Reads.bind_pure (i32_readsBack baseVertex) rfl

end Decoding

/-! ## Records -/

theorem packFloats_length (xs : List F32) : (packFloats xs).length = (xs.length + 1) / 2 := by
  induction xs using packFloats.induct with
  | case1 => rfl
  | case2 a => simp [packFloats]
  | case3 a b rest ih =>
    rw [packFloats, List.length_cons, ih, List.length_cons, List.length_cons]
    omega

theorem color_length (c : Color) : (color.put c).length = 2 := by
  simp [color, packFloats]

theorem transform_length (t : Transform) : (transform.put t).length = 8 := by
  show (packFloats t.columns.toList).length = 8
  rw [packFloats_length, Vector.length_toList]

theorem attachmentWords_length (a : ColorAttachment) : (attachmentWords a).length ≤ 6 := by
  cases a with
  | mk target loading storing =>
    cases loading <;> simp [attachmentWords, idWords, u64, loadOp, storeOp, enumeration,
      Codec.enumeration, usize, color_length]

theorem flatMap_attachmentWords_length (attachments : List ColorAttachment) :
    (attachments.flatMap attachmentWords).length ≤ 6 * attachments.length := by
  induction attachments with
  | nil => exact Nat.zero_le _
  | cons a rest ih =>
    have here := attachmentWords_length a
    rw [List.flatMap_cons, List.length_append, List.length_cons]
    omega

theorem passWords_length (d : RenderPassDesc) : (passWords d).length ≤ 60 := by
  have colors := flatMap_attachmentWords_length d.colorAttachments
  have extra := d.extra_le
  have length : d.colorAttachments.length = d.extraColors.length + 1 := rfl
  have depth : ((d.depth.map depthWords).getD []).length ≤ 6 := by
    cases d.depth with
    | none => exact Nat.zero_le _
    | some a =>
      cases a with
      | mk target loading storing readOnly =>
        cases loading <;> simp [depthWords, idWords, u64, depthLoadOp, f32, u32, storeOp, enumeration,
          Codec.enumeration, usize, bool]
  unfold MAX_COLOR_ATTACHMENTS at extra
  simp only [passWords, pixelRect, u32, usize, bool, List.length_append, List.length_cons,
    List.length_nil]
  omega

/-- No record is longer than a reader allows. -/
theorem operands_length (c : Command) : (operands c).length ≤ 60 := by
  cases c with
  | beginRenderPass d => exact passWords_length d
  | setScissor rect =>
    cases rect <;> simp [operands, option, Codec.option, bool, pixelRect, u32]
  | setUniforms u =>
    simp [operands, drawUniforms, transform_length, color_length]
  | setViewport v => simp [operands, viewport, packFloats_length]
  | resourceBarrier barrier =>
    cases barrier <;> simp [operands, barrierWords, idWords, u64, u32, bufferAccess, textureAccess,
      enumeration, Codec.enumeration, usize]
  | _ =>
    simp [operands, idWords, u64, u32, i32, pixelRect, borrowedBytes, bool, filterMode, indexFormat,
      shaderStages, flags, enumeration, Codec.enumeration, usize]

/-- The lower half of a header is the opcode, the upper half the length. -/
theorem header_halves (op : UInt32) {n : Nat} (h : n < 2 ^ 32) :
    (op.toUInt64 ||| (UInt64.ofNat n <<< 32)).toUInt32 = op ∧
      ((op.toUInt64 ||| (UInt64.ofNat n <<< 32)) >>> 32).toNat = n := by
  have narrow : UInt64.ofNat n = (UInt32.ofNat n).toUInt64 := by
    apply UInt64.toNat_inj.mp
    simp
    omega
  refine ⟨by rw [narrow, packed_low], ?_⟩
  rw [narrow, packed_high, ← narrow]
  exact UInt64.toNat_ofNat_of_lt' (Nat.lt_trans h (by decide))

theorem readRecord_reads (c : Command) : Reads readRecord (encode c) (opcode c, operands c) := by
  have short := operands_length c
  obtain ⟨low, high⟩ := header_halves (opcode c) (n := (operands c).length + 1) (by omega)
  show Reads _ ([_] ++ operands c) _
  refine Reads.bind (word_reads _) ?_
  rw [low, high]
  refine .lift_bind (a := ()) ?_ ?_
  · rw [failIf_eq_ok]
    unfold MAX_WORDS
    omega
  · exact Reads.take.bind_pure rfl

theorem encode_length (c : Command) : (encode c).length ≤ MAX_WORDS := by
  have short := operands_length c
  rw [encode, List.length_cons]
  unfold MAX_WORDS
  omega

/-- A row that is read whole. -/
theorem decodeWhole_of_answers {α : Type} {get : Reader UInt64 Error α} {row : List UInt64}
    {x : Except Error α} (h : Answers get row x) : decodeWhole get row = x := by
  unfold decodeWhole
  cases x with
  | ok a => rw [Reads.whole h]
  | error e =>
    obtain ⟨after, failed⟩ := h []
    rw [List.append_nil] at failed
    rw [failed]

section Recordings

variable {T : ResourceTable}

theorem nextCommand_answers (newer : T.abi.legacyProgramIds = false) (c : Command) :
    Answers (nextCommand T) (encode c) (resolve T c) := by
  refine Reads.bind_answers_last (readRecord_reads c) ?_
  rw [← decodeWhole_of_answers (decodeInto_answers newer c)]
  exact .lift _

/-- The records of some commands. -/
def records (commands : List Command) : List UInt64 := commands.flatMap encode

/-- A recording is read as what the table makes of its commands, up to the first that does not
resolve. -/
theorem read_records (newer : T.abi.legacyProgramIds = false) (commands : List Command) :
    Iter.collect T ⟨records commands, commands.length⟩ = commands.mapM (resolve T) :=
  decodeWhole_of_answers (Answers.repeated fun c _ => nextCommand_answers newer c)

/-- Ask for commands until there is none, at most this often. -/
def Iter.drain (T : ResourceTable) : Nat → Fallible Iter Error (List Command)
  | 0 => pure []
  | turns + 1 => do
    match ← Iter.next T with
    | none => pure []
    | some c =>
      let rest ← Iter.drain T turns
      pure (c :: rest)

theorem Iter.collect_of_ok {words rest : List UInt64} {c : Command}
    (read : nextCommand T words = (.ok c, rest)) (remaining : Nat) :
    Iter.collect T ⟨words, remaining + 1⟩ =
      (Iter.collect T ⟨rest, remaining⟩).map (List.cons c) := by
  have run : (nextCommand T).repeated (remaining + 1) words =
      ((nextCommand T).repeated remaining >>= fun later => pure (c :: later)) rest :=
    Fallible.bind_run_of_ok read
  unfold Iter.collect decodeWhole
  rw [run, Fallible.bind_run]
  rcases (nextCommand T).repeated remaining rest with ⟨e | later, _ | ⟨w, more⟩⟩ <;> rfl

theorem Iter.collect_of_error {words rest : List UInt64} {e : Error}
    (read : nextCommand T words = (.error e, rest)) (remaining : Nat) :
    Iter.collect T ⟨words, remaining + 1⟩ = .error e := by
  have run : (nextCommand T).repeated (remaining + 1) words = (.error e, rest) := by
    rw [Reader.repeated, Fallible.bind_run, read]
  unfold Iter.collect decodeWhole
  rw [run]

/-- Asking for one command after the other gives what the recording holds, and leaves nothing,
whether it fails or comes to the end. -/
theorem Iter.drain_eq (it : Iter) :
    Iter.drain T (it.remaining + 1) it = (it.collect T, ⟨[], 0⟩) := by
  obtain ⟨words, remaining⟩ := it
  induction remaining generalizing words with
  | zero => cases words <;> rfl
  | succ remaining ih =>
    unfold Iter.drain
    rcases read : nextCommand T words with ⟨e | c, rest⟩
    · rw [Iter.collect_of_error read]
      simp [Fallible.bind_run, Iter.next, read]
    · have next : Iter.next T ⟨words, remaining + 1⟩ = (.ok (some c), ⟨rest, remaining⟩) := by
        simp [Iter.next, read]
      rw [Iter.collect_of_ok read, Fallible.bind_run_of_ok next]
      show (Iter.drain T (remaining + 1) >>= fun later => pure (c :: later)) _ = _
      rw [Fallible.bind_run, ih rest]
      cases Iter.collect T ⟨rest, remaining⟩ <;> rfl

/-- Pushing commands appends their records. -/
theorem push_records (commands : List Command) (words : List UInt64) (count : Nat) :
    commands.foldlM (fun s c => Storage.push c s) (.abi words count) =
      some (.abi (words ++ records commands) (count + commands.length)) := by
  induction commands generalizing words count with
  | nil => simp [records]
  | cons c rest ih =>
    rw [List.foldlM_cons]
    refine (ih (words ++ encode c) (count + 1)).trans ?_
    rw [records, records, List.flatMap_cons, List.append_assoc, List.length_cons, Nat.add_assoc,
      Nat.add_comm 1]

/-! ### Compute commands -/

theorem opcode_range (c : Command) : 1 ≤ opcode c ∧ opcode c ≤ 29 := by
  cases c <;> simp [opcode]

theorem isCompute_eq (c : Command) :
    isCompute c = (decide (19 ≤ opcode c) && decide (opcode c ≤ 22)) := by
  cases c <;> rfl

theorem scanRecord_reads (c : Command) : Reads scanRecord (encode c) (isCompute c) := by
  have short := operands_length c
  obtain ⟨low, high⟩ := header_halves (opcode c) (n := (operands c).length + 1) (by omega)
  show Reads _ ([_] ++ operands c) _
  refine Reads.bind (word_reads _) ?_
  rw [low, high, isCompute_eq]
  refine .lift_bind (a := ()) ?_ ?_
  · rw [failIf_eq_ok]
    unfold MAX_WORDS
    rintro (empty | long | foreign)
    · omega
    · omega
    · exact foreign (opcode_range c)
  · exact Reads.take.bind_pure rfl

/-- The records tell whether there are compute commands as the commands do. -/
theorem scanCompute_records (commands : List Command) :
    scanCompute (records commands) commands.length = .ok (commands.any isCompute) := by
  have reads : Reads (scanRecord.repeated commands.length) (records commands)
      (commands.map isCompute) := Reads.repeated fun c _ => scanRecord_reads c
  unfold scanCompute
  rw [decodeWhole_of_answers (x := .ok _) reads]
  show Except.ok ((commands.map isCompute).any id) = _
  rw [List.any_map]
  rfl

end Recordings

end Abi

end Sgfx
