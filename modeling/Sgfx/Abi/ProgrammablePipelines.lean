import Sgfx.Abi.Pipelines

/-!
# Programmable pipelines on the wire

The row of a programmable pipeline: what its constructor takes, its vertex buffers, depth
state and outputs, and the tails with the step modes, the instance divisors and the depth
bias of the vertex buffers and the rasterization that need them.

## Main Definitions

* `programmableHead` — the words every row has
* `stepTail`, `divisorTail` — the words of some
* `programmableRenderPipelineDesc`

## Main Results

* `getSteps_run`, `getDivisors_run` — each tail restores what it says, or nothing
* `programmable_get_iff` — which pipelines are decoded from their rows
* `pipelines_get_iff` — the same for a pair of pipelines, with the rows that have no tail
-/

namespace Sgfx.Abi

open ProgrammableRenderPipelineDesc (locations LocationsValid)

/-! ## Tails -/

/-- `STEP`. -/
def STEP : UInt64 := 0x53544550

/-- `DIVS`. -/
def DIVS : UInt64 := 0x44495653

def stepTail (buffers : List VertexBufferLayout) : List UInt64 :=
  if buffers.any fun layout => layout.stepMode ≠ .vertex then
    STEP :: (vec vertexStepMode).put (buffers.map VertexBufferLayout.stepMode)
  else []

def divisorTail (buffers : List VertexBufferLayout) : List UInt64 :=
  if buffers.any fun layout => layout.instanceDivisor ≠ 1 then
    DIVS :: (vec u32).put (buffers.map VertexBufferLayout.instanceDivisor)
  else []

/-- The step modes, if they come next. -/
def getSteps (d : ProgrammableRenderPipelineDesc) :
    Reader UInt64 Error ProgrammableRenderPipelineDesc := do
  let rest ← Fallible.read
  if rest.head? = some STEP then do
    let _ ← word
    let modes ← (vec vertexStepMode).get
    liftM (failIf (modes.length ≠ d.vertexBuffers.length) Error.invalidDescriptor)
    liftM (d.withVertexBuffers
      ((d.vertexBuffers.zip modes).map fun p => p.1.withStepMode p.2))
  else pure d

/-- The instance divisors, if they come next. -/
def getDivisors (d : ProgrammableRenderPipelineDesc) :
    Reader UInt64 Error ProgrammableRenderPipelineDesc := do
  let rest ← Fallible.read
  if rest.head? = some DIVS then do
    let _ ← word
    let divisors ← (vec u32).get
    liftM (failIf (divisors.length ≠ d.vertexBuffers.length) Error.invalidDescriptor)
    let layouts ← liftM ((d.vertexBuffers.zip divisors).mapM fun p => p.1.withInstanceDivisor p.2)
    liftM (d.withVertexBuffers layouts)
  else pure d

/-! ## Rows -/

/-- The words that every row has. -/
def programmableHead (T : ResourceTable) (d : ProgrammableRenderPipelineDesc) : List UInt64 :=
  (shaderEntryPoint T false).put d.vertex ++ ((shaderEntryPoint T false).put d.fragment ++
    (pipelineLayoutDesc.put d.layout ++ (textureFormat.put d.targetFormat ++
      (primitiveTopology.put d.topology ++ (blendState.put d.blend ++ (rasterState.put d.raster ++
        ((vec vertexBufferLayout).put d.vertexBuffers ++ ((option depthState).put d.depth ++
          (vec colorTargetState).put d.colorTargets))))))))

/-- The tails of a row. -/
def programmableTails (d : ProgrammableRenderPipelineDesc) : List UInt64 :=
  stepTail d.vertexBuffers ++ (divisorTail d.vertexBuffers ++ biasTail d.raster)

/-- What follows the vertex buffers. -/
def getAfterBuffers (d : ProgrammableRenderPipelineDesc) :
    Reader UInt64 Error ProgrammableRenderPipelineDesc := do
  let depth ← (option depthState).get
  let d ← liftM (depth.elim (Except.ok d) d.withDepthState)
  let targets ← (vec colorTargetState).get
  let d ← liftM (d.withColorTargets targets)
  let d ← getSteps d
  let d ← getDivisors d
  let raster ← getBiasTail d.raster
  let rest ← Fallible.read
  liftM (failIf (rest ≠ []) Error.invalidDescriptor)
  pure (d.withRasterState raster)

/-- `Codec for ProgrammableRenderPipelineDesc`, as one row. -/
def programmableRenderPipelineDesc (T : ResourceTable) :
    RowCodec ProgrammableRenderPipelineDesc where
  put d := programmableHead T d ++ programmableTails d
  get := do
    let vertex ← (shaderEntryPoint T false).get
    let fragment ← (shaderEntryPoint T false).get
    let layout ← pipelineLayoutDesc.get
    let targetFormat ← textureFormat.get
    let topology ← primitiveTopology.get
    let blend ← blendState.get
    let raster ← rasterState.get
    let d ← liftM (ProgrammableRenderPipelineDesc.new vertex fragment layout targetFormat none
      topology blend raster)
    let buffers ← (vec vertexBufferLayout).get
    let d ← liftM (d.withVertexBuffers buffers)
    getAfterBuffers d

/-! ## What the tails restore -/

/-- A layout with its step mode but not its divisor. -/
def stepped (layout : VertexBufferLayout) : VertexBufferLayout :=
  (layout.withStepMode .vertex).withStepMode layout.stepMode

section Tails

variable {buffers : List VertexBufferLayout} {layout : VertexBufferLayout}
  {d : ProgrammableRenderPipelineDesc} {more : List UInt64}

theorem withInstanceDivisor_stepped (layout : VertexBufferLayout) :
    (stepped layout).withInstanceDivisor layout.instanceDivisor = .ok layout :=
  dif_pos layout.divisor

theorem stepped_instanceDivisor (layout : VertexBufferLayout) :
    (stepped layout).instanceDivisor = 1 := by
  show (if layout.stepMode = .vertex then (1 : UInt32) else 1) = 1
  exact ite_self 1

theorem stepped_self (h : layout.instanceDivisor = 1) : stepped layout = layout := by
  have hdivisor := stepped_instanceDivisor layout
  rw [← h] at hdivisor
  unfold stepped VertexBufferLayout.withStepMode at *
  obtain ⟨stride, attributes, stepMode, instanceDivisor, valid, divisor⟩ := layout
  simp only at hdivisor ⊢
  congr 1

theorem stepped_vertex (h : layout.stepMode = .vertex) :
    stepped layout = layout.withStepMode .vertex := by
  unfold stepped
  rw [h]
  exact withStepMode_self rfl

theorem locations_map {f : VertexBufferLayout → VertexBufferLayout}
    (h : ∀ layout, (f layout).attributes = layout.attributes) :
    locations (buffers.map f) = locations buffers := by
  unfold locations
  rw [List.flatMap_map]
  exact List.flatMap_congr fun layout _ => by rw [h]

theorem withVertexBuffers_map {f : VertexBufferLayout → VertexBufferLayout}
    (hlength : buffers.length ≤ MAX_VERTEX_BUFFERS) (hvalid : LocationsValid buffers)
    (h : ∀ layout, (f layout).attributes = layout.attributes) :
    ∃ valid, d.withVertexBuffers (buffers.map f) =
      .ok { d with vertexBuffers := buffers.map f, valid := valid } := by
  have hmap : (buffers.map f).length ≤ MAX_VERTEX_BUFFERS ∧ LocationsValid (buffers.map f) := by
    rw [LocationsValid, locations_map h, List.length_map]
    exact ⟨hlength, hvalid⟩
  exact ⟨_, dif_pos hmap⟩

theorem exists_vertexBuffers (h : d.vertexBuffers = buffers) :
    ∃ valid, { d with vertexBuffers := buffers, valid := valid } = d := by
  subst h
  exact ⟨d.valid, rfl⟩

/-- The step modes are restored. -/
theorem getSteps_run (hlength : buffers.length ≤ MAX_VERTEX_BUFFERS)
    (hvalid : LocationsValid buffers) (hmore : more.head? ≠ some STEP)
    (hbuffers : d.vertexBuffers = buffers.map (·.withStepMode .vertex)) :
    ∃ valid, getSteps d (stepTail buffers ++ more) =
      (.ok { d with vertexBuffers := buffers.map stepped, valid := valid }, more) := by
  have hfew : buffers.length < 2 ^ 64 := Nat.lt_of_le_of_lt hlength (by decide)
  unfold getSteps
  rw [Fallible.read_bind_run]
  by_cases hstep : (buffers.any fun layout => layout.stepMode ≠ .vertex) = true
  · have htail : stepTail buffers =
        [STEP] ++ (vec vertexStepMode).put (buffers.map VertexBufferLayout.stepMode) := if_pos hstep
    have hmodes : (vec vertexStepMode).ReadsBack (buffers.map VertexBufferLayout.stepMode) := by
      refine vec_readsBack (by rwa [List.length_map]) ?_ ?_
      · intro mode _
        exact vertexStepMode_readsBack mode
      · intro mode _
        exact List.cons_ne_nil _ _
    have hzip : (d.vertexBuffers.zip (buffers.map VertexBufferLayout.stepMode)).map
        (fun p => p.1.withStepMode p.2) = buffers.map stepped := by
      rw [hbuffers, List.zip_map', List.map_map]
      rfl
    obtain ⟨valid, hset⟩ := withVertexBuffers_map (d := d) hlength hvalid
      (f := stepped) fun _ => rfl
    have hhead : (stepTail buffers ++ more).head? = some STEP := by
      rw [htail]
      rfl
    refine ⟨valid, ?_⟩
    rw [if_pos hhead, htail, List.append_assoc]
    refine ((word_reads STEP).bind_run _).trans ((Reads.bind_run hmodes _).trans ?_)
    refine (Reads.lift_bind_run (a := ()) ?_ _).trans ?_
    · rw [failIf_eq_ok, hbuffers, List.length_map, List.length_map]
      exact not_not_intro rfl
    · rw [hzip, hset]
      rfl
  · have htail : stepTail buffers = [] := if_neg hstep
    have hsame : d.vertexBuffers = buffers.map stepped := by
      rw [hbuffers]
      refine List.map_congr_left fun layout hlayout => (stepped_vertex ?_).symm
      by_contra hmode
      exact hstep (List.any_eq_true.mpr ⟨layout, hlayout, decide_eq_true hmode⟩)
    obtain ⟨valid, heq⟩ := exists_vertexBuffers hsame
    refine ⟨valid, ?_⟩
    rw [htail, List.nil_append, if_neg hmore, heq]
    rfl

/-- The divisors are restored, and with them the layouts. -/
theorem getDivisors_run (hlength : buffers.length ≤ MAX_VERTEX_BUFFERS)
    (hvalid : LocationsValid buffers) (hmore : more.head? ≠ some DIVS)
    (hbuffers : d.vertexBuffers = buffers.map stepped) :
    ∃ valid, getDivisors d (divisorTail buffers ++ more) =
      (.ok { d with vertexBuffers := buffers, valid := valid }, more) := by
  have hfew : buffers.length < 2 ^ 64 := Nat.lt_of_le_of_lt hlength (by decide)
  unfold getDivisors
  rw [Fallible.read_bind_run]
  by_cases hdivisor : (buffers.any fun layout => layout.instanceDivisor ≠ 1) = true
  · have htail : divisorTail buffers =
        [DIVS] ++ (vec u32).put (buffers.map VertexBufferLayout.instanceDivisor) := if_pos hdivisor
    have hdivisors : (vec u32).ReadsBack (buffers.map VertexBufferLayout.instanceDivisor) := by
      refine vec_readsBack (by rwa [List.length_map]) ?_ ?_
      · intro divisor _
        exact u32_readsBack divisor
      · intro divisor _
        exact List.cons_ne_nil _ _
    have hzip : (d.vertexBuffers.zip (buffers.map VertexBufferLayout.instanceDivisor)).mapM
        (fun p => p.1.withInstanceDivisor p.2) = .ok buffers := by
      have hall : (buffers.map fun layout => (stepped layout, layout.instanceDivisor)).mapM
          (fun p => p.1.withInstanceDivisor p.2) = .ok (buffers.map id) :=
        mapM_map_eq_ok fun layout _ => withInstanceDivisor_stepped layout
      rw [hbuffers, List.zip_map', hall, List.map_id]
    have hhead : (divisorTail buffers ++ more).head? = some DIVS := by
      rw [htail]
      rfl
    refine ⟨d.vertexBuffers_valid ⟨hlength, hvalid⟩, ?_⟩
    rw [if_pos hhead, htail, List.append_assoc]
    refine ((word_reads DIVS).bind_run _).trans ((Reads.bind_run hdivisors _).trans ?_)
    refine (Reads.lift_bind_run (a := ()) ?_ _).trans ?_
    · rw [failIf_eq_ok, hbuffers, List.length_map, List.length_map]
      exact not_not_intro rfl
    · refine (Reads.lift_bind_run hzip _).trans ?_
      have hset : d.withVertexBuffers buffers = .ok _ := dif_pos ⟨hlength, hvalid⟩
      rw [hset]
      rfl
  · have htail : divisorTail buffers = [] := if_neg hdivisor
    have hsame : d.vertexBuffers = buffers := by
      rw [hbuffers]
      conv_rhs => rw [← List.map_id buffers]
      refine List.map_congr_left fun layout hlayout => stepped_self ?_
      by_contra hmode
      exact hdivisor (List.any_eq_true.mpr ⟨layout, hlayout, decide_eq_true hmode⟩)
    obtain ⟨valid, heq⟩ := exists_vertexBuffers hsame
    refine ⟨valid, ?_⟩
    rw [htail, List.nil_append, if_neg hmore, heq]
    rfl

end Tails

/-! ## What a row restores -/

section Rows

variable {T : ResourceTable} {d : ProgrammableRenderPipelineDesc}

theorem biasTail_head (raster : RasterState) :
    (biasTail raster).head? = none ∨ (biasTail raster).head? = some BIAS := by
  unfold biasTail
  split
  · exact .inr rfl
  · exact .inl rfl

/-- A bias is no divisors. -/
theorem biasTail_head_ne (raster : RasterState) : (biasTail raster).head? ≠ some DIVS := by
  rcases biasTail_head raster with h | h <;> rw [h] <;> decide

/-- The divisors are no step modes, nor is a bias. -/
theorem divisorTail_head_ne (buffers : List VertexBufferLayout) (raster : RasterState) :
    (divisorTail buffers ++ biasTail raster).head? ≠ some STEP := by
  unfold divisorTail
  split
  · show some DIVS ≠ some STEP
    decide
  · rw [List.nil_append]
    rcases biasTail_head raster with h | h <;> rw [h] <;> decide

/-- The layouts of the head of a row are valid if those of the descriptor are. -/
theorem bare_valid (d : ProgrammableRenderPipelineDesc) (hvalid : LocationsValid d.vertexBuffers) :
    (d.vertexBuffers.map (·.withStepMode .vertex)).length ≤ MAX_VERTEX_BUFFERS ∧
      LocationsValid (d.vertexBuffers.map (·.withStepMode .vertex)) := by
  rw [LocationsValid, locations_map (f := (·.withStepMode .vertex)) fun _ => rfl, List.length_map]
  exact ⟨d.valid.2.2.2.1, hvalid⟩

theorem opened_valid (d : ProgrammableRenderPipelineDesc) :
    d.vertex.stage = .vertex ∧ d.fragment.stage = .fragment ∧ d.targetFormat ≠ .depth32Float :=
  ⟨d.valid.1, d.valid.2.1, d.valid.2.2.1⟩

/-- What a row says before the vertex buffers. -/
def opened (d : ProgrammableRenderPipelineDesc) : ProgrammableRenderPipelineDesc :=
  ⟨d.vertex, d.fragment, d.layout, d.targetFormat, [], d.topology, d.blend,
    RasterState.new d.raster.cullMode d.raster.frontFace, none, .ALL, [],
    ProgrammableRenderPipelineDesc.new_valid none (opened_valid d)⟩

/-- And with them. -/
def bare (d : ProgrammableRenderPipelineDesc) (hvalid : LocationsValid d.vertexBuffers) :
    ProgrammableRenderPipelineDesc :=
  { opened d with
    vertexBuffers := d.vertexBuffers.map (·.withStepMode .vertex)
    valid := (opened d).vertexBuffers_valid (bare_valid d hvalid) }

theorem elim_withDepthState (base : ProgrammableRenderPipelineDesc) (depth : Option DepthState)
    (hbase : base.depth = none) (hformat : ∀ x ∈ depth, x.format = .depth32Float) :
    ∃ valid, depth.elim (.ok base) base.withDepthState =
      .ok { base with depth := depth, valid := valid } := by
  cases depth with
  | none =>
    refine ⟨hbase ▸ base.valid, congrArg Except.ok ?_⟩
    obtain ⟨_, _, _, _, _, _, _, _, depth, _, _, _⟩ := base
    cases hbase
    rfl
  | some depth => exact ⟨_, dif_pos (hformat depth rfl)⟩

theorem withColorTargets_colorTargets (base d : ProgrammableRenderPipelineDesc) :
    base.withColorTargets d.colorTargets =
      .ok { base with
        targetFormat := d.targetFormat
        blend := d.blend
        colorWriteMask := d.colorWriteMask
        additionalTargets := d.additionalTargets
        valid := ⟨base.valid.1, base.valid.2.1, d.valid.2.2.1, base.valid.2.2.2.1,
          base.valid.2.2.2.2.1, d.valid.2.2.2.2.2⟩ } :=
  dif_pos d.valid.2.2.2.2.2

/-- The depth state, the outputs and the tails complete the descriptor. -/
theorem getAfterBuffers_run (h : d.Sound T) (hvalid : LocationsValid d.vertexBuffers) :
    getAfterBuffers (bare d hvalid) ((option depthState).put d.depth ++
      ((vec colorTargetState).put d.colorTargets ++ programmableTails d)) = (.ok d, []) := by
  have hdepth : (option depthState).ReadsBack d.depth :=
    option_readsBack fun depth _ => depthState_readsBack depth
  have htargets : (vec colorTargetState).ReadsBack d.colorTargets := by
    refine vec_readsBack (Nat.lt_of_le_of_lt d.valid.2.2.2.2.2 (by decide)) ?_ ?_
    · intro t _
      exact colorTargetState_readsBack t
    · intro t _
      exact List.cons_ne_nil _ _
  have hlength := d.valid.2.2.2.1
  obtain ⟨_, hset⟩ := elim_withDepthState (bare d hvalid) d.depth rfl d.valid.2.2.2.2.1
  refine (Reads.bind_run hdepth _).trans ((Reads.lift_bind_run hset _).trans ?_)
  refine (Reads.bind_run htargets _).trans ?_
  refine (Reads.lift_bind_run (withColorTargets_colorTargets _ d) _).trans ?_
  obtain ⟨_, hsteps⟩ := getSteps_run (d := { bare d hvalid with
      targetFormat := d.targetFormat
      blend := d.blend
      depth := d.depth
      colorWriteMask := d.colorWriteMask
      additionalTargets := d.additionalTargets
      valid := _ }) hlength hvalid (divisorTail_head_ne d.vertexBuffers d.raster) rfl
  refine Fallible.bind_eq_ok.mpr ⟨_, _, hsteps, ?_⟩
  obtain ⟨_, hdivisors⟩ := getDivisors_run (d := { bare d hvalid with
      targetFormat := d.targetFormat
      vertexBuffers := d.vertexBuffers.map stepped
      blend := d.blend
      depth := d.depth
      colorWriteMask := d.colorWriteMask
      additionalTargets := d.additionalTargets
      valid := _ }) hlength hvalid (biasTail_head_ne d.raster) rfl
  refine Fallible.bind_eq_ok.mpr ⟨_, _, hdivisors, ?_⟩
  exact Fallible.bind_eq_ok.mpr ⟨d.raster, [], getBiasTail_biasTail h.raster, rfl⟩

/-- A row is decoded up to its vertex buffers, which the builder then accepts or refuses. -/
theorem programmable_get (h : d.Sound T) :
    (programmableRenderPipelineDesc T).get ((programmableRenderPipelineDesc T).put d) =
      ((liftM ((opened d).withVertexBuffers (d.vertexBuffers.map (·.withStepMode .vertex))) :
          Reader UInt64 Error ProgrammableRenderPipelineDesc) >>= getAfterBuffers)
        ((option depthState).put d.depth ++
          ((vec colorTargetState).put d.colorTargets ++ programmableTails d)) := by
  have hbuffers : Reads (vec vertexBufferLayout).get ((vec vertexBufferLayout).put d.vertexBuffers)
      (d.vertexBuffers.map (·.withStepMode .vertex)) := by
    refine vec_reads (Nat.lt_of_le_of_lt d.valid.2.2.2.1 (by decide)) ?_ ?_
    · intro layout _
      exact vertexBufferLayout_reads layout
    · intro layout _
      exact List.cons_ne_nil _ _
  have hnew : ProgrammableRenderPipelineDesc.new d.vertex d.fragment d.layout d.targetFormat none
      d.topology d.blend (RasterState.new d.raster.cullMode d.raster.frontFace) =
      .ok (opened d) :=
    dif_pos (opened_valid d)
  show (programmableRenderPipelineDesc T).get (programmableHead T d ++ programmableTails d) = _
  unfold programmableHead
  simp only [List.append_assoc]
  refine ((shaderEntryPoint_readsBack h.vertex).bind_run _).trans ?_
  refine ((shaderEntryPoint_readsBack h.fragment).bind_run _).trans ?_
  refine ((pipelineLayoutDesc_readsBack h.layout).bind_run _).trans ?_
  refine ((textureFormat_readsBack d.targetFormat).bind_run _).trans ?_
  refine ((primitiveTopology_readsBack d.topology).bind_run _).trans ?_
  refine ((blendState_readsBack d.blend).bind_run _).trans ?_
  refine ((rasterState_reads d.raster).bind_run _).trans ?_
  refine (Reads.lift_bind_run hnew _).trans ?_
  exact hbuffers.bind_run _

/-- The locations are distinct, so that only the limit can be missed. -/
theorem locationsValid_iff (h : d.Sound T) : LocationsValid d.vertexBuffers ↔
    ∀ layout ∈ d.vertexBuffers, ∀ a ∈ layout.attributes,
      a.location.toNat < MAX_VERTEX_ATTRIBUTES := by
  rw [LocationsValid, and_iff_left h.locations]
  constructor
  · intro hall layout hlayout a ha
    exact hall _ (List.mem_flatMap.mpr ⟨layout, hlayout, List.mem_map.mpr ⟨a, ha, rfl⟩⟩)
  · intro hall location hlocation
    obtain ⟨layout, hlayout, hmem⟩ := List.mem_flatMap.mp hlocation
    obtain ⟨a, ha, rfl⟩ := List.mem_map.mp hmem
    exact hall layout hlayout a ha

/-- A programmable pipeline is decoded from its row exactly when all its locations are below the
limit. -/
theorem programmable_get_iff (h : d.Sound T) :
    (programmableRenderPipelineDesc T).get ((programmableRenderPipelineDesc T).put d) =
        (.ok d, []) ↔
      ∀ layout ∈ d.vertexBuffers, ∀ a ∈ layout.attributes,
        a.location.toNat < MAX_VERTEX_ATTRIBUTES := by
  rw [programmable_get h, ← locationsValid_iff h]
  constructor
  · intro hok
    rw [Fallible.lift_bind_eq_ok] at hok
    obtain ⟨d', hset, -⟩ := hok
    unfold ProgrammableRenderPipelineDesc.withVertexBuffers at hset
    split at hset
    · rename_i hvalid
      rw [LocationsValid, locations_map (f := (·.withStepMode .vertex)) fun _ => rfl] at hvalid
      exact hvalid.2
    · split at hset <;> cases hset
  · intro hvalid
    refine (Reads.lift_bind_run (dif_pos (bare_valid d hvalid)) _).trans ?_
    exact getAfterBuffers_run h hvalid

/-- No step modes, no divisors and no bias. -/
def Featureless (d : ProgrammableRenderPipelineDesc) : Prop :=
  (∀ layout ∈ d.vertexBuffers, layout.stepMode = .vertex ∧ layout.instanceDivisor = 1) ∧
    d.raster.biasBits = (0, 0)

theorem biasTail_eq_nil {raster : RasterState} (h : raster.biasBits = (0, 0)) :
    biasTail raster = [] := by
  unfold biasTail hasBias
  rw [h]
  rfl

theorem programmableTails_eq_nil (h : Featureless d) : programmableTails d = [] := by
  have hstep : ¬ (d.vertexBuffers.any fun layout => layout.stepMode ≠ .vertex) = true := by
    intro hany
    obtain ⟨layout, hlayout, hmode⟩ := List.any_eq_true.mp hany
    exact of_decide_eq_true hmode (h.1 layout hlayout).1
  have hdivisor : ¬ (d.vertexBuffers.any fun layout => layout.instanceDivisor ≠ 1) = true := by
    intro hany
    obtain ⟨layout, hlayout, hone⟩ := List.any_eq_true.mp hany
    exact of_decide_eq_true hone (h.1 layout hlayout).2
  unfold programmableTails stepTail divisorTail
  rw [if_neg hstep, if_neg hdivisor, biasTail_eq_nil h.2]
  rfl

/-- The pipelines that the builders construct are decoded from their rows, and need no tail when
they use none of its features, exactly if the locations of the programmable one are below the
limit. -/
theorem pipelines_get_iff {fixed : RenderPipelineDesc} (hfixed : fixed.Built) (h : d.Built T) :
    (renderPipelineDesc.get (renderPipelineDesc.put fixed) = (.ok fixed, []) ∧
      (fixed.raster.biasBits = (0, 0) → biasTail fixed.raster = []) ∧
      (programmableRenderPipelineDesc T).get ((programmableRenderPipelineDesc T).put d) =
        (.ok d, []) ∧
      (Featureless d → (programmableRenderPipelineDesc T).put d = programmableHead T d)) ↔
      ∀ layout ∈ d.vertexBuffers, ∀ a ∈ layout.attributes,
        a.location.toNat < MAX_VERTEX_ATTRIBUTES := by
  have hget := programmable_get_iff h.sound
  constructor
  · rintro ⟨-, -, hok, -⟩
    exact hget.mp hok
  · intro hlimit
    refine ⟨renderPipelineDesc_get hfixed, biasTail_eq_nil, hget.mpr hlimit, fun hnone => ?_⟩
    show programmableHead T d ++ programmableTails d = programmableHead T d
    rw [programmableTails_eq_nil hnone, List.append_nil]

end Rows

/-! ## A location that only the constructor accepts -/

theorem shader_declared : (ShaderSource.wgsl "x").entryPoints = .ok [] := rfl

/-- A module with every entry point. -/
def shader : ShaderModuleDesc := ⟨.wgsl "x", [], shader_declared⟩

theorem shaderOwner_ne : (1 : UInt64) ≠ 0 := by decide

/-- Its table. -/
def shaderTable : ResourceTable :=
  (ResourceTable.define .shaderModule true shader (ResourceTable.new 1 shaderOwner_ne)).2

def vertexMain : ShaderEntryPoint := ⟨⟨1, 0, 0⟩, .vertex, "v"⟩

def fragmentMain : ShaderEntryPoint := ⟨⟨1, 0, 0⟩, .fragment, "f"⟩

theorem vertexMain_live : vertexMain.Live shaderTable := ⟨rfl, by decide⟩

theorem fragmentMain_live : fragmentMain.Live shaderTable := ⟨rfl, by decide⟩

theorem oneAttribute_valid (location : UInt32) :
    vertexLayoutValid 8 [⟨location, .float32x2, 0⟩] := by
  refine ⟨by decide, List.cons_ne_nil _ _, Nat.succ_le_succ (Nat.zero_le _), ?_, ?_⟩
  · intro a ha
    cases List.mem_singleton.mp ha
    exact Nat.le_of_ble_eq_true rfl
  · exact List.pairwise_singleton _ _

theorem oneAttribute_divisor :
    (1 : UInt32) ≠ 0 ∧ (VertexStepMode.vertex = .vertex → (1 : UInt32) = 1) := by decide

/-- A pair of floats at one location. -/
def oneAttribute (location : UInt32) : VertexBufferLayout :=
  ⟨8, [⟨location, .float32x2, 0⟩], .vertex, 1, oneAttribute_valid location, oneAttribute_divisor⟩

theorem noGroups_le : ([] : List BindGroupLayoutDesc).length ≤ MAX_BIND_GROUPS := Nat.zero_le _

def noGroups : PipelineLayoutDesc := ⟨[], [], noGroups_le⟩

theorem oneLocation_valid :
    vertexMain.stage = .vertex ∧ fragmentMain.stage = .fragment ∧
      TextureFormat.rgba8Unorm ≠ .depth32Float := by decide

/-- A pipeline that fetches from one location. -/
def oneLocation (location : UInt32) : ProgrammableRenderPipelineDesc :=
  ⟨vertexMain, fragmentMain, noGroups, .rgba8Unorm, [oneAttribute location], .triangleList, .REPLACE,
    RasterState.new .none .clockwise, none, .ALL, [],
    ProgrammableRenderPipelineDesc.new_valid (some (oneAttribute location)) oneLocation_valid⟩

theorem oneLocation_built (location : UInt32) : (oneLocation location).Built shaderTable := by
  have hlayout : PipelineLayoutDesc.new [] = .ok noGroups := rfl
  have hnew : ProgrammableRenderPipelineDesc.new vertexMain fragmentMain noGroups .rgba8Unorm
      (some (oneAttribute location)) .triangleList .REPLACE (RasterState.new .none .clockwise) =
      .ok (oneLocation location) := dif_pos oneLocation_valid
  exact .new vertexMain_live fragmentMain_live (.new hlayout) (.new .none .clockwise) hnew

theorem solid_valid :
    TextureFormat.rgba8Unorm ≠ .depth32Float ∧ (oneAttribute 0).stepMode = .vertex ∧
      fragmentAttributesValid (oneAttribute 0) .solid = true ∧
      ∀ d ∈ (none : Option DepthState), d.format = .depth32Float :=
  ⟨by decide, rfl, by decide, fun _ h => absurd h (Option.not_mem_none _)⟩

/-- A fixed-function pipeline of the same layout. -/
def solid : RenderPipelineDesc :=
  ⟨.rgba8Unorm, .triangleList, oneAttribute 0, .solid, .REPLACE, RasterState.new .none .clockwise,
    none, solid_valid⟩

theorem solid_built : solid.Built := .new (.new .none .clockwise) (dif_pos solid_valid)

theorem oneLocation_limit : ∀ layout ∈ (oneLocation 0).vertexBuffers, ∀ a ∈ layout.attributes,
    a.location.toNat < MAX_VERTEX_ATTRIBUTES := by decide

theorem pipelines_get_oneLocation :
    (programmableRenderPipelineDesc shaderTable).get
        ((programmableRenderPipelineDesc shaderTable).put (oneLocation 0)) =
      (.ok (oneLocation 0), []) :=
  ((pipelines_get_iff solid_built (oneLocation_built 0)).mpr oneLocation_limit).2.2.1

/-- Location 16 is constructed and encoded, and its row is refused. -/
theorem oneLocation_not_get :
    (oneLocation 16).Built shaderTable ∧
      ((programmableRenderPipelineDesc shaderTable).get
        ((programmableRenderPipelineDesc shaderTable).put (oneLocation 16))).1 =
      .error .invalidDescriptor := by
  refine ⟨oneLocation_built 16, ?_⟩
  have hlocations : ¬ ([(oneAttribute 16).withStepMode .vertex].length ≤ MAX_VERTEX_BUFFERS ∧
      LocationsValid [(oneAttribute 16).withStepMode .vertex]) := by
    rintro ⟨-, hall, -⟩
    have hmem : (16 : UInt32) ∈ locations [(oneAttribute 16).withStepMode .vertex] :=
      List.mem_cons_self
    exact absurd (hall 16 hmem) (Nat.lt_irrefl 16)
  have hset : (opened (oneLocation 16)).withVertexBuffers
      [(oneAttribute 16).withStepMode .vertex] = .error .invalidDescriptor := dif_neg hlocations
  have hget := programmable_get (oneLocation_built 16).sound
  rw [show (oneLocation 16).vertexBuffers.map (·.withStepMode .vertex) =
    [(oneAttribute 16).withStepMode .vertex] from rfl, hset] at hget
  rw [hget]
  rfl

end Sgfx.Abi
