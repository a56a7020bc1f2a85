import Sgfx.ResourceTable

/-!
# Generations of the resource table

Every define and release operation is one change of one slot pool, or an append
to one of the two growing lists (`TableChange`).  From that single case analysis
follow the two facts the rest of the development uses: a table stays consistent
(`ResourceTable.Consistent`), and over time it only evolves
(`ResourceTable.Evolves`), so that a resource an identity once resolved to is
either still there or gone for good.

## Main Definitions

* `TableChange` — what a successful operation does
* `ResourceTable.Consistent` — pools well formed, pipelines on live shaders
* `ResourceTable.Evolves`
* `TableRun` — a sequence of operations, with every identity handed out

## Main Results

* `TableOp.run_ok`, `TableOp.run_atomic`
* `TableRun.generational` — the invariants over whole runs
-/

namespace Sgfx

open ResourceTable

/-- The shader modules a descriptor names. -/
def shadersOf : (c : Category) → Descriptor c → List ShaderModuleId
  | .computePipeline, d => [d.shader.module]
  | .programmablePipeline, d => [d.vertex.module, d.fragment.module]
  | .texture, _ | .buffer, _ | .bindGroup, _ | .shaderModule, _ => []

/-- What a successful define or release does to the table. -/
inductive TableChange (T : ResourceTable) : Option AnyId → ResourceTable → Prop
  | defined (c : Category) (d : Descriptor c) (alloc : Bool) {i : Nat} {g : UInt64}
      {p : SlotPool (Descriptor c)}
      (slot : SlotPool.define c.maximum alloc Error.resourceLimitExceeded .outOfMemory d
        (T.pools c) = (.ok (i, g), p))
      (shaders : ∀ m ∈ shadersOf c d, ∃ e, T.get m = .ok e)
      (group : ∀ b : BindGroupDesc, (⟨c, d⟩ : (c : Category) × Descriptor c) = ⟨.bindGroup, b⟩ →
        b.validate T = .ok ()) :
      TableChange T (some ⟨c, ⟨T.id, .ofNat i, g⟩⟩) (T.setPool c p).abiChanged
  | released (c : Category) (id : Id c) {p : SlotPool (Descriptor c)}
      (live : ∃ d, T.get id = .ok d)
      (slot : SlotPool.release Error.resourceLimitExceeded id.index.toNat (T.pools c) =
        (.ok (), p))
      (unused : ∀ m : ShaderModuleId, (⟨c, id⟩ : AnyId) = ⟨.shaderModule, m⟩ →
        T.shaderInUse m = false) :
      TableChange T none (T.setPool c p).abiChanged
  | sampler (d : SamplerDesc) (room : T.samplers.length < MAX_SAMPLERS) :
      TableChange T none ({ T with samplers := T.samplers ++ [d] } : ResourceTable).abiChanged
  | pipeline (d : RenderPipelineDesc) (room : T.pipelines.length < MAX_RENDER_PIPELINES) :
      TableChange T none ({ T with pipelines := T.pipelines ++ [d] } : ResourceTable).abiChanged

/-! ### Reading the operations -/

namespace ResourceTable

variable {c : Category} {T T' : ResourceTable} {alloc : Bool}

theorem define_ok {d : Descriptor c} {id : Id c} (h : define c alloc d T = (.ok id, T')) :
    ∃ i g p, SlotPool.define c.maximum alloc Error.resourceLimitExceeded .outOfMemory d
      (T.pools c) = (.ok (i, g), p) ∧ id = ⟨T.id, .ofNat i, g⟩ ∧
      T' = (T.setPool c p).abiChanged := by
  unfold define at h
  obtain ⟨⟨i, g⟩, mid, hslot, h⟩ := Fallible.bind_eq_ok.mp h
  obtain ⟨p, hpool, rfl⟩ := Fallible.zoom_eq_ok.mp hslot
  rw [Fallible.update_bind_run, Fallible.read_bind_run, Fallible.pure_run, Prod.mk.injEq,
    Except.ok.injEq] at h
  exact ⟨i, g, p, hpool, h.1.symm, h.2.symm⟩

theorem vacate_ok {index : Nat} {u : Unit} (h : vacate c index T = (.ok u, T')) :
    ∃ p, SlotPool.release Error.resourceLimitExceeded index (T.pools c) = (.ok (), p) ∧
      T' = (T.setPool c p).abiChanged := by
  unfold vacate at h
  obtain ⟨_, mid, hslot, h⟩ := Fallible.bind_eq_ok.mp h
  obtain ⟨p, hpool, rfl⟩ := Fallible.zoom_eq_ok.mp hslot
  rw [Fallible.update_run, Prod.mk.injEq] at h
  exact ⟨p, hpool, h.2.symm⟩

theorem release_ok {id : Id c} {u : Unit} (h : release c id T = (.ok u, T')) :
    (∃ d, T.get id = .ok d) ∧
    ∃ p, SlotPool.release Error.resourceLimitExceeded id.index.toNat (T.pools c) = (.ok (), p) ∧
      T' = (T.setPool c p).abiChanged := by
  unfold release at h
  rw [Fallible.read_bind_run] at h
  obtain ⟨_, hlive, h⟩ := Fallible.lift_bind_eq_ok.mp h
  exact ⟨(ref_eq_ok.mp hlive).2, vacate_ok h⟩

theorem define_atomic (d : Descriptor c) : Fallible.Atomic (define c alloc d) := by
  refine Fallible.Atomic.bind_total (Fallible.Atomic.zoom ?_ (SlotPool.define_atomic _ _ _ _)) ?_
  · intro T
    simp [setPool]
  · exact fun _ => (Fallible.Total.update _).bind fun _ => Fallible.Total.read.bind
      fun _ => Fallible.Total.pure _

theorem vacate_atomic (index : Nat) : Fallible.Atomic (vacate c index) := by
  refine Fallible.Atomic.bind_total (Fallible.Atomic.zoom ?_ (SlotPool.release_atomic _ _)) ?_
  · intro T
    simp [setPool]
  · exact fun _ => Fallible.Total.update _

theorem release_atomic (id : Id c) : Fallible.Atomic (release c id) :=
  .read_bind fun _ => .lift_bind fun _ _ => vacate_atomic _

end ResourceTable

/-- A rejected operation leaves the table unchanged. -/
theorem TableOp.run_atomic (alloc : Bool) (op : TableOp) : Fallible.Atomic (op.run alloc) := by
  cases op with
  | defineTexture d | defineBuffer d | defineShaderModule d =>
      exact .bind_total (define_atomic _) fun _ => .pure _
  | releaseTexture id | releaseBuffer id | releaseBindGroup id | releaseComputePipeline id
  | releaseProgrammableRenderPipeline id =>
      exact .bind_total (release_atomic _) fun _ => .pure _
  | defineSampler d | defineRenderPipeline d =>
      refine .bind_total (.read_bind fun _ => .lift_bind fun _ _ => .lift_bind fun _ _ =>
        .of_total ?_) fun _ => .pure _
      exact (Fallible.Total.update _).bind fun _ => .pure _
  | releaseShaderModule id =>
      exact .bind_total (.read_bind fun _ => .lift_bind fun _ _ => .lift_bind fun _ _ =>
        vacate_atomic _) fun _ => .pure _
  | defineBindGroup d =>
      exact .bind_total (.read_bind fun _ => .lift_bind fun _ _ => define_atomic _)
        fun _ => .pure _
  | defineComputePipeline d =>
      exact .bind_total (.read_bind fun _ => .lift_bind fun _ _ => define_atomic _)
        fun _ => .pure _
  | defineProgrammableRenderPipeline d =>
      exact .bind_total (.read_bind fun _ => .lift_bind fun _ _ => .lift_bind fun _ _ =>
        define_atomic _) fun _ => .pure _

/-- A successful operation is one change of the table. -/
theorem TableOp.run_ok {alloc : Bool} {op : TableOp} {T T' : ResourceTable} {r : Option AnyId}
    (h : op.run alloc T = (.ok r, T')) : TableChange T r T' := by
  cases op with
  | defineTexture d | defineBuffer d | defineShaderModule d =>
      obtain ⟨id, hid, rfl⟩ := Fallible.bind_pure_eq_ok.mp h
      obtain ⟨i, g, p, slot, rfl, rfl⟩ := define_ok hid
      exact .defined _ d alloc slot (by simp [shadersOf]) (by simp)
  | releaseTexture id | releaseBuffer id | releaseBindGroup id | releaseComputePipeline id
  | releaseProgrammableRenderPipeline id =>
      obtain ⟨_, hid, rfl⟩ := Fallible.bind_pure_eq_ok.mp h
      obtain ⟨live, p, slot, rfl⟩ := release_ok hid
      exact .released _ id live slot (by simp)
  | defineSampler d =>
      obtain ⟨_, hid, rfl⟩ := Fallible.bind_pure_eq_ok.mp h
      rw [ResourceTable.defineSampler, pushSampler, Fallible.read_bind_run] at hid
      obtain ⟨_, room, hid⟩ := Fallible.lift_bind_eq_ok.mp hid
      obtain ⟨_, _, hid⟩ := Fallible.lift_bind_eq_ok.mp hid
      rw [Fallible.update_bind_run, Fallible.pure_run, Prod.mk.injEq] at hid
      rw [failIf_eq_ok, Nat.not_le] at room
      rw [← hid.2]
      exact .sampler d room
  | defineRenderPipeline d =>
      obtain ⟨_, hid, rfl⟩ := Fallible.bind_pure_eq_ok.mp h
      rw [ResourceTable.defineRenderPipeline, Fallible.read_bind_run] at hid
      obtain ⟨_, room, hid⟩ := Fallible.lift_bind_eq_ok.mp hid
      obtain ⟨_, _, hid⟩ := Fallible.lift_bind_eq_ok.mp hid
      rw [Fallible.update_bind_run, Fallible.pure_run, Prod.mk.injEq] at hid
      rw [failIf_eq_ok, Nat.not_le] at room
      rw [← hid.2]
      exact .pipeline d room
  | releaseShaderModule id =>
      obtain ⟨_, hid, rfl⟩ := Fallible.bind_pure_eq_ok.mp h
      rw [ResourceTable.releaseShaderModule, Fallible.read_bind_run] at hid
      obtain ⟨_, live, hid⟩ := Fallible.lift_bind_eq_ok.mp hid
      obtain ⟨_, unused, hid⟩ := Fallible.lift_bind_eq_ok.mp hid
      obtain ⟨p, slot, rfl⟩ := vacate_ok hid
      refine .released _ id (ref_eq_ok.mp live).2 slot fun m hm => ?_
      cases hm
      simpa using unused
  | defineBindGroup d =>
      obtain ⟨_, hid, rfl⟩ := Fallible.bind_pure_eq_ok.mp h
      rw [ResourceTable.defineBindGroup, Fallible.read_bind_run] at hid
      obtain ⟨_, valid, hid⟩ := Fallible.lift_bind_eq_ok.mp hid
      obtain ⟨i, g, p, slot, rfl, rfl⟩ := define_ok hid
      refine .defined _ d alloc slot (by simp [shadersOf]) fun b hb => ?_
      cases hb
      exact valid
  | defineComputePipeline d =>
      obtain ⟨_, hid, rfl⟩ := Fallible.bind_pure_eq_ok.mp h
      rw [ResourceTable.defineComputePipeline, Fallible.read_bind_run] at hid
      obtain ⟨_, live, hid⟩ := Fallible.lift_bind_eq_ok.mp hid
      obtain ⟨i, g, p, slot, rfl, rfl⟩ := define_ok hid
      refine .defined _ d alloc slot (fun m hm => ?_) (by simp)
      rw [List.mem_singleton.mp hm]
      exact (ref_eq_ok.mp live).2
  | defineProgrammableRenderPipeline d =>
      obtain ⟨_, hid, rfl⟩ := Fallible.bind_pure_eq_ok.mp h
      rw [ResourceTable.defineProgrammableRenderPipeline, Fallible.read_bind_run] at hid
      obtain ⟨_, vertex, hid⟩ := Fallible.lift_bind_eq_ok.mp hid
      obtain ⟨_, fragment, hid⟩ := Fallible.lift_bind_eq_ok.mp hid
      obtain ⟨i, g, p, slot, rfl, rfl⟩ := define_ok hid
      refine .defined _ d alloc slot (fun m hm => ?_) (by simp)
      rcases List.mem_cons.mp hm with rfl | hm
      · exact (ref_eq_ok.mp vertex).2
      · rw [List.mem_singleton.mp hm]
        exact (ref_eq_ok.mp fragment).2

/-! ### Consistency -/

/-- The pools are well formed and bounded, and every live pipeline names live
shader modules. -/
structure ResourceTable.Consistent (T : ResourceTable) : Prop where
  pools : ∀ c, (T.pools c).Wellformed c.maximum
  shaders : ∀ {c : Category} {i : Nat} {g : UInt64} {d : Descriptor c},
    (T.pools c).resolve i g = some d → ∀ m ∈ shadersOf c d, ∃ e, T.get m = .ok e
  samplers : T.samplers.length ≤ MAX_SAMPLERS
  pipelines : T.pipelines.length ≤ MAX_RENDER_PIPELINES

/-- No slot number of a consistent table is near the width of an identity. -/
theorem Category.maximum_le (c : Category) : c.maximum ≤ 32768 := by
  cases c <;> decide

theorem ResourceTable.Consistent.toNat_ofNat {T : ResourceTable} {c : Category} {i : Nat}
    (consistent : T.Consistent) (h : i ≤ (T.pools c).slots.length) :
    (UInt64.ofNat i).toNat = i := by
  have bounded := (consistent.pools c).bounded
  have small := c.maximum_le
  rw [UInt64.toNat_ofNat']
  omega

theorem ResourceTable.new_consistent (id : UInt64) (id_ne : id ≠ 0) :
    (ResourceTable.new id id_ne).Consistent where
  pools _ := SlotPool.wellformed_empty
  shaders h := by simp [ResourceTable.new, SlotPool.resolve, SlotPool.empty] at h
  samplers := Nat.zero_le _
  pipelines := Nat.zero_le _

/-- Two identities of one table that name the same slot and resolve are equal. -/
theorem ResourceTable.id_ext {T : ResourceTable} {c : Category} {a b : Id c}
    {d e : Descriptor c} (ha : T.get a = .ok d) (hb : T.get b = .ok e)
    (h : a.index.toNat = b.index.toNat) : a = b := by
  rw [get_eq_ok] at ha hb
  obtain ⟨s, hs, hsg, _⟩ := SlotPool.resolve_eq_some.mp ha.2
  obtain ⟨t, ht, htg, _⟩ := SlotPool.resolve_eq_some.mp hb.2
  rw [h, ht, Option.some.injEq] at hs
  subst hs
  cases a
  cases b
  simp_all [UInt64.toNat_inj]

namespace TableChange

variable {T T' : ResourceTable} {r : Option AnyId}

/-- A shader module in use by a slot is one `release_shader_module` refuses. -/
theorem shaderInUse_of_slot {c : Category} {i : Nat} {g : UInt64} {d : Descriptor c}
    {m : ShaderModuleId} (h : (T.pools c).resolve i g = some d) (hm : m ∈ shadersOf c d) :
    T.shaderInUse m = true := by
  obtain ⟨s, hs, _, hd⟩ := SlotPool.resolve_eq_some.mp h
  have member := List.mem_of_getElem? hs
  unfold shaderInUse
  cases c with
  | texture | buffer | bindGroup | shaderModule => simp [shadersOf] at hm
  | computePipeline =>
      rw [Bool.or_eq_true]
      left
      refine List.any_eq_true.mpr ⟨s, member, ?_⟩
      simp [hd, List.mem_singleton.mp hm]
  | programmablePipeline =>
      rw [Bool.or_eq_true]
      right
      refine List.any_eq_true.mpr ⟨s, member, ?_⟩
      rcases List.mem_cons.mp hm with rfl | hm
      · simp [hd]
      · simp [hd, List.mem_singleton.mp hm]

/-- Every change keeps the table consistent. -/
theorem consistent (h : TableChange T r T') (before : T.Consistent) : T'.Consistent := by
  cases h with
  | @defined c d alloc i g p slot shaders group =>
      refine ⟨fun c' => ?_, fun {c' j k e} live m hm => ?_, before.samplers, before.pipelines⟩
      · by_cases hc : c' = c
        · subst hc
          simpa using (before.pools c').define slot
        · simpa [setPool_other _ _ hc] using before.pools c'
      · -- A shader that was live stays live: a definition retires nothing.
        have keeps : ∀ {n : ShaderModuleId} {e : ShaderModuleDesc}, T.get n = .ok e →
            (T.setPool c p).abiChanged.get n = .ok e := by
          intro n e hn
          rw [get_eq_ok] at hn ⊢
          refine ⟨hn.1, ?_⟩
          unfold lookup
          by_cases hc : Category.shaderModule = c
          · subst hc
            simpa using SlotPool.resolve_define_of_resolve (before.pools _) slot hn.2
          · rw [abiChanged_pools, setPool_other _ _ hc]
            exact hn.2
        have liveBefore : ∃ e, T.get m = .ok e := by
          by_cases hc : c' = c
          · subst hc
            rw [abiChanged_pools, setPool_same] at live
            rcases SlotPool.resolve_define_cases slot live with ⟨_, _, rfl⟩ | hlive
            · exact shaders m hm
            · exact before.shaders hlive m hm
          · rw [abiChanged_pools, setPool_other _ _ hc] at live
            exact before.shaders live m hm
        obtain ⟨e', he'⟩ := liveBefore
        exact ⟨e', keeps he'⟩
  | @released c id p live slot unused =>
      obtain ⟨d, hd⟩ := live
      refine ⟨fun c' => ?_, fun {c' j k e} live m hm => ?_, before.samplers, before.pipelines⟩
      · by_cases hc : c' = c
        · subst hc
          simpa using (before.pools c').release ⟨_, _, (get_eq_ok.mp hd).2⟩ slot
        · simpa [setPool_other _ _ hc] using before.pools c'
      · have liveBefore : (T.pools c').resolve j k = some e := by
          by_cases hc : c' = c
          · subst hc
            rw [abiChanged_pools, setPool_same] at live
            exact ((SlotPool.resolve_release_iff slot).mp live).2
          · rwa [abiChanged_pools, setPool_other _ _ hc] at live
        obtain ⟨e', he'⟩ := before.shaders liveBefore m hm
        refine ⟨e', get_eq_ok.mpr ⟨(get_eq_ok.mp he').1, ?_⟩⟩
        unfold lookup
        by_cases hc : Category.shaderModule = c
        · subst hc
          -- The released module is in use by no pipeline, so it is another one.
          have other : m.index.toNat ≠ id.index.toNat := by
            intro heq
            have same : m = id := id_ext he' hd heq
            have free := unused id rfl
            rw [← same, shaderInUse_of_slot liveBefore hm] at free
            cases free
          simpa using (SlotPool.resolve_release_iff slot).mpr ⟨other, (get_eq_ok.mp he').2⟩
        · rw [abiChanged_pools, setPool_other _ _ hc]
          exact (get_eq_ok.mp he').2
  | sampler d room =>
      exact ⟨before.pools, before.shaders, by
        simp only [abiChanged_samplers, List.length_append, List.length_singleton]
        omega, before.pipelines⟩
  | pipeline d room =>
      exact ⟨before.pools, before.shaders, before.samplers, by
        simp only [abiChanged_pipelines, List.length_append, List.length_singleton]
        omega⟩

end TableChange

/-! ### Change over time -/

namespace ResourceTable

variable {c : Category} {T T' T'' : ResourceTable}

/-- How a table may change over time: pools evolve and lists grow. -/
structure Evolves (T T' : ResourceTable) : Prop where
  id : T'.id = T.id
  pools : ∀ c, (T.pools c).Evolves (T'.pools c)
  samplers : T.samplers <+: T'.samplers
  pipelines : T.pipelines <+: T'.pipelines

theorem Evolves.refl (T : ResourceTable) : T.Evolves T :=
  ⟨rfl, fun _ => .refl _, List.prefix_rfl, List.prefix_rfl⟩

theorem Evolves.trans (first : T.Evolves T') (second : T'.Evolves T'') : T.Evolves T'' :=
  ⟨second.id.trans first.id, fun c => (first.pools c).trans (second.pools c),
    first.samplers.trans second.samplers, first.pipelines.trans second.pipelines⟩

/-- The identity's slot has moved on: it resolves to nothing, now and later. -/
def Gone (T : ResourceTable) (id : Id c) : Prop :=
  (T.pools c).Retired id.index.toNat id.generation

theorem Gone.get_ne_ok {id : Id c} {d : Descriptor c} (h : T.Gone id) : T.get id ≠ .ok d := by
  intro hd
  have live := (get_eq_ok.mp hd).2
  rw [lookup, h.resolve_eq_none] at live
  cases live

theorem Gone.mono {id : Id c} (h : T.Evolves T') (gone : T.Gone id) : T'.Gone id :=
  SlotPool.Retired.mono (h.pools c) gone

/-- A resource that resolves keeps its descriptor or is gone. -/
theorem Evolves.get {id : Id c} {d : Descriptor c} (h : T.Evolves T') (live : T.get id = .ok d) :
    T'.get id = .ok d ∨ T'.Gone id := by
  rw [get_eq_ok] at live
  rcases (h.pools c).resolve live.2 with hlive | hgone
  · exact .inl (get_eq_ok.mpr ⟨live.1.trans h.id.symm, hlive⟩)
  · exact .inr hgone

/-- An identity resolves to one descriptor over the whole life of a table. -/
theorem Evolves.get_unique {id : Id c} {d e : Descriptor c} (h : T.Evolves T')
    (before : T.get id = .ok d) (after : T'.get id = .ok e) : e = d := by
  rcases h.get before with live | gone
  · exact Except.ok.inj (after.symm.trans live)
  · exact absurd after gone.get_ne_ok

end ResourceTable

theorem TableChange.evolves {T T' : ResourceTable} {r : Option AnyId}
    (h : TableChange T r T') (before : T.Consistent) : T.Evolves T' := by
  cases h with
  | @defined c d alloc i g p slot shaders group =>
      refine ⟨rfl, fun c' => ?_, List.prefix_rfl, List.prefix_rfl⟩
      by_cases hc : c' = c
      · subst hc
        rw [abiChanged_pools, setPool_same]
        exact SlotPool.Evolves.define (before.pools c') slot
      · rw [abiChanged_pools, setPool_other _ _ hc]
        exact .refl _
  | @released c id p live slot unused =>
      refine ⟨rfl, fun c' => ?_, List.prefix_rfl, List.prefix_rfl⟩
      by_cases hc : c' = c
      · subst hc
        rw [abiChanged_pools, setPool_same]
        exact SlotPool.Evolves.release slot
      · rw [abiChanged_pools, setPool_other _ _ hc]
        exact .refl _
  | sampler d room => exact ⟨rfl, fun _ => .refl _, List.prefix_append .., List.prefix_rfl⟩
  | pipeline d room => exact ⟨rfl, fun _ => .refl _, List.prefix_rfl, List.prefix_append ..⟩

/-! ### Bind groups -/

/-- Every live bind group fitted the table it was defined on. -/
def ResourceTable.GroupsFit (T : ResourceTable) : Prop :=
  ∀ (id : BindGroupId) (g : BindGroupDesc), T.get id = .ok g →
    ∃ T₀ : ResourceTable, T₀.Evolves T ∧ g.validate T₀ = .ok ()

/-- A live group was live before the change, or the change validated it. -/
theorem TableChange.group_cases {T T' : ResourceTable} {r : Option AnyId} {id : BindGroupId}
    {g : BindGroupDesc} (h : TableChange T r T') (live : T'.get id = .ok g) :
    T.get id = .ok g ∨ g.validate T = .ok () := by
  rw [get_eq_ok] at live ⊢
  obtain ⟨owner, live⟩ := live
  unfold lookup at live
  cases h with
  | @defined c d alloc i k p slot shaders group =>
      by_cases hc : Category.bindGroup = c
      · subst hc
        rw [abiChanged_pools, setPool_same] at live
        rcases SlotPool.resolve_define_cases slot live with ⟨-, -, rfl⟩ | hlive
        · exact .inr (group g rfl)
        · exact .inl ⟨owner, hlive⟩
      · rw [abiChanged_pools, setPool_other _ _ hc] at live
        exact .inl ⟨owner, live⟩
  | @released c other p _ slot _ =>
      by_cases hc : Category.bindGroup = c
      · subst hc
        rw [abiChanged_pools, setPool_same] at live
        exact .inl ⟨owner, ((SlotPool.resolve_release_iff slot).mp live).2⟩
      · rw [abiChanged_pools, setPool_other _ _ hc] at live
        exact .inl ⟨owner, live⟩
  | sampler | pipeline => exact .inl ⟨owner, live⟩

theorem TableChange.groupsFit {T T' : ResourceTable} {r : Option AnyId}
    (h : TableChange T r T') (before : T.Consistent) (fit : T.GroupsFit) : T'.GroupsFit := by
  intro id g live
  rcases h.group_cases live with older | valid
  · obtain ⟨T₀, evolves, valid⟩ := fit id g older
    exact ⟨T₀, evolves.trans (h.evolves before), valid⟩
  · exact ⟨T, h.evolves before, valid⟩

/-! ### Runs -/

/-- A table and every identity its definitions have returned, oldest first. -/
structure TableRun where
  table : ResourceTable
  issued : List AnyId

namespace TableRun

/-- Make one call, whatever its outcome; the flag is the allocator's answer. -/
def step (r : TableRun) (call : Bool × TableOp) : TableRun :=
  match call.2.run call.1 r.table with
  | (.ok answer, T) => ⟨T, r.issued ++ answer.toList⟩
  | (.error _, T) => ⟨T, r.issued⟩

/-- Make a sequence of calls. -/
def run (r : TableRun) (calls : List (Bool × TableOp)) : TableRun := calls.foldl step r

/-- A step is a rejection that changes nothing, or one change. -/
theorem step_cases (r : TableRun) (call : Bool × TableOp) :
    r.step call = r ∨ ∃ answer T, TableChange r.table answer T ∧
      r.step call = ⟨T, r.issued ++ answer.toList⟩ := by
  unfold step
  match h : call.2.run call.1 r.table with
  | (.ok answer, T) => exact .inr ⟨answer, T, TableOp.run_ok h, rfl⟩
  | (.error e, T) =>
      have unchanged := (TableOp.run_atomic call.1 call.2).unchanged h
      exact .inl (by rw [unchanged])

/-- What every run keeps: the table is consistent, the identities handed out are
distinct and belong to slots that were occupied, and what resolves was handed
out. -/
structure Invariant (r : TableRun) : Prop where
  consistent : r.table.Consistent
  distinct : r.issued.Nodup
  issued : ∀ a ∈ r.issued, a.2.owner = r.table.id ∧
    (r.table.pools a.1).Issued a.2.index.toNat a.2.generation
  live : ∀ {c : Category} {id : Id c} {d : Descriptor c}, r.table.get id = .ok d →
    (⟨c, id⟩ : AnyId) ∈ r.issued

theorem new_invariant (id : UInt64) (id_ne : id ≠ 0) :
    (⟨ResourceTable.new id id_ne, []⟩ : TableRun).Invariant where
  consistent := ResourceTable.new_consistent id id_ne
  distinct := List.nodup_nil
  issued _ h := by cases h
  live h := by
    have := (get_eq_ok.mp h).2
    simp [lookup, ResourceTable.new, SlotPool.resolve, SlotPool.empty] at this

theorem Invariant.step {r : TableRun} (h : r.Invariant) (call : Bool × TableOp) :
    (r.step call).Invariant := by
  rcases r.step_cases call with hsame | ⟨answer, T, change, hstep⟩
  · rw [hsame]
    exact h
  rw [hstep]
  have consistent := change.consistent h.consistent
  have evolves := change.evolves h.consistent
  have stillIssued : ∀ a ∈ r.issued, a.2.owner = T.id ∧
      (T.pools a.1).Issued a.2.index.toNat a.2.generation := fun a ha =>
    ⟨(h.issued a ha).1.trans evolves.id.symm, (h.issued a ha).2.mono (evolves.pools a.1)⟩
  cases change with
  | @defined c d alloc i g p slot shaders group =>
      have small : (UInt64.ofNat i).toNat = i := by
        rcases SlotPool.define_eq_ok slot with ⟨s, _, hs, _⟩ | ⟨_, rfl, _⟩
        · exact h.consistent.toNat_ofNat (Nat.le_of_lt (List.getElem?_eq_some_iff.mp hs).1)
        · exact h.consistent.toNat_ofNat (Nat.le_refl _)
      have fresh := SlotPool.not_issued_before_define (h.consistent.pools c) slot
      have resolves := SlotPool.resolve_of_define slot
      refine ⟨consistent, ?_, fun a ha => ?_, fun {c' id e} live => ?_⟩
      · rw [Option.toList_some, List.nodup_append]
        refine ⟨h.distinct, by simp, fun a ha b hb => ?_⟩
        rintro rfl
        rw [List.mem_singleton] at hb
        subst hb
        exact fresh (by simpa [small] using (h.issued _ ha).2)
      · rw [Option.toList_some, List.mem_append, List.mem_singleton] at ha
        rcases ha with ha | rfl
        · exact stillIssued a ha
        · refine ⟨rfl, ?_⟩
          rw [abiChanged_pools, setPool_same]
          simpa [small] using SlotPool.issued_of_resolve resolves
      · rw [Option.toList_some, List.mem_append, List.mem_singleton]
        have hget := get_eq_ok.mp live
        by_cases hc : c' = c
        · subst hc
          rw [lookup, abiChanged_pools, setPool_same] at hget
          rcases SlotPool.resolve_define_cases slot hget.2 with ⟨hi, hg, _⟩ | hlive
          · right
            obtain ⟨owner, index, generation⟩ := id
            have hindex : index = UInt64.ofNat i :=
              UInt64.toNat_inj.mp (hi.trans small.symm)
            have howner : owner = r.table.id := hget.1
            subst hindex howner hg
            rfl
          · exact .inl (h.live (get_eq_ok.mpr ⟨hget.1, hlive⟩))
        · rw [lookup, abiChanged_pools, setPool_other _ _ hc] at hget
          exact .inl (h.live (get_eq_ok.mpr ⟨hget.1, hget.2⟩))
  | @released c id p live slot unused =>
      refine ⟨consistent, by simpa using h.distinct, by simpa using stillIssued,
        fun {c' id' e} live => ?_⟩
      rw [Option.toList_none, List.append_nil]
      have hget := get_eq_ok.mp live
      by_cases hc : c' = c
      · subst hc
        rw [lookup, abiChanged_pools, setPool_same] at hget
        exact h.live
          (get_eq_ok.mpr ⟨hget.1, ((SlotPool.resolve_release_iff slot).mp hget.2).2⟩)
      · rw [lookup, abiChanged_pools, setPool_other _ _ hc] at hget
        exact h.live (get_eq_ok.mpr ⟨hget.1, hget.2⟩)
  | sampler d room | pipeline d room =>
      refine ⟨consistent, by simpa using h.distinct, by simpa using stillIssued,
        fun {c' id' e} live => ?_⟩
      rw [Option.toList_none, List.append_nil]
      exact h.live live

theorem Invariant.run {r : TableRun} (h : r.Invariant) (calls : List (Bool × TableOp)) :
    (r.run calls).Invariant := by
  induction calls generalizing r with
  | nil => exact h
  | cons call rest ih => exact ih (h.step call)

theorem evolves_step {r : TableRun} (h : r.Invariant) (call : Bool × TableOp) :
    r.table.Evolves (r.step call).table := by
  rcases r.step_cases call with hsame | ⟨answer, T, change, hstep⟩
  · rw [hsame]
    exact .refl _
  · rw [hstep]
    exact change.evolves h.consistent

theorem evolves_run {r : TableRun} (h : r.Invariant) (calls : List (Bool × TableOp)) :
    r.table.Evolves (r.run calls).table := by
  induction calls generalizing r with
  | nil => exact .refl _
  | cons call rest ih => exact (evolves_step h call).trans (ih (h.step call))

end TableRun

/-- The identity a release call names. -/
def TableOp.releases : TableOp → Option AnyId
  | .releaseTexture x => some ⟨.texture, x⟩
  | .releaseBuffer x => some ⟨.buffer, x⟩
  | .releaseBindGroup x => some ⟨.bindGroup, x⟩
  | .releaseShaderModule x => some ⟨.shaderModule, x⟩
  | .releaseComputePipeline x => some ⟨.computePipeline, x⟩
  | .releaseProgrammableRenderPipeline x => some ⟨.programmablePipeline, x⟩
  | _ => none

/-- A successful release retires the identity it names. -/
theorem TableOp.gone_of_releases {alloc : Bool} {op : TableOp} {T T' : ResourceTable}
    {r : Option AnyId} {c : Category} {id : Id c} (names : op.releases = some ⟨c, id⟩)
    (h : op.run alloc T = (.ok r, T')) : T'.Gone id := by
  have retire : ∀ {u : Unit} {x : Id c} {p : SlotPool (Descriptor c)},
      (∃ d, T.get x = .ok d) → SlotPool.release Error.resourceLimitExceeded x.index.toNat
        (T.pools c) = (.ok u, p) → ((T.setPool c p).abiChanged).Gone x := by
    intro u x p hlive slot
    obtain ⟨d, hd⟩ := hlive
    unfold Gone
    rw [abiChanged_pools, setPool_same]
    exact SlotPool.retired_of_release (get_eq_ok.mp hd).2 slot
  cases op with
  | releaseTexture x | releaseBuffer x | releaseBindGroup x | releaseComputePipeline x
  | releaseProgrammableRenderPipeline x =>
      cases names
      obtain ⟨_, hid, rfl⟩ := Fallible.bind_pure_eq_ok.mp h
      obtain ⟨live, p, slot, rfl⟩ := release_ok hid
      exact retire live slot
  | releaseShaderModule x =>
      cases names
      obtain ⟨_, hid, rfl⟩ := Fallible.bind_pure_eq_ok.mp h
      rw [ResourceTable.releaseShaderModule, Fallible.read_bind_run] at hid
      obtain ⟨_, live, hid⟩ := Fallible.lift_bind_eq_ok.mp hid
      obtain ⟨_, _, hid⟩ := Fallible.lift_bind_eq_ok.mp hid
      obtain ⟨p, slot, rfl⟩ := vacate_ok hid
      exact retire (ref_eq_ok.mp live).2 slot
  | _ => simp [TableOp.releases] at names

/-- **Generational resource table.**  After every sequence of calls on a new
table: each category's free list is acyclic and holds exactly its vacant slots,
within the category's capacity; the identities handed out are pairwise distinct
and include every one that resolves; live pipelines name live shader modules; a
rejected call changes nothing; and an identity released now resolves after no
later sequence of calls. -/
theorem generational_table (id : UInt64) (id_ne : id ≠ 0) (calls : List (Bool × TableOp)) :
    let r := TableRun.run ⟨ResourceTable.new id id_ne, []⟩ calls
    (∀ c, (r.table.pools c).Wellformed c.maximum) ∧
    r.issued.Nodup ∧
    (∀ (c : Category) (x : Id c) (d : Descriptor c), r.table.get x = .ok d →
      (⟨c, x⟩ : AnyId) ∈ r.issued) ∧
    (∀ (c : Category) (x : Id c) (d : Descriptor c), r.table.get x = .ok d →
      ∀ m ∈ shadersOf c d, ∃ e, r.table.get m = .ok e) ∧
    (∀ (alloc : Bool) (op : TableOp) (e : Error) (T : ResourceTable),
      op.run alloc r.table = (.error e, T) → T = r.table) ∧
    (∀ (alloc : Bool) (op : TableOp) (answer : Option AnyId) (T : ResourceTable) (c : Category)
      (x : Id c), op.releases = some ⟨c, x⟩ → op.run alloc r.table = (.ok answer, T) →
      ∀ (later : List (Bool × TableOp)) (d : Descriptor c),
        (TableRun.run ⟨T, r.issued⟩ later).table.get x ≠ .ok d) := by
  intro r
  have inv : r.Invariant := (TableRun.new_invariant id id_ne).run calls
  refine ⟨inv.consistent.pools, inv.distinct, fun c x d => inv.live, fun c x d live => ?_,
    fun alloc op e T h => (TableOp.run_atomic alloc op).unchanged h,
    fun alloc op answer T c x names h later d => ?_⟩
  · exact inv.consistent.shaders (get_eq_ok.mp live).2
  · have hstep : r.step (alloc, op) = ⟨T, r.issued ++ answer.toList⟩ := by
      simp [TableRun.step, h]
    have gone : T.Gone x := TableOp.gone_of_releases names h
    have answerless : answer = none := by
      cases op <;> simp_all [TableOp.releases, TableOp.run, Fallible.bind_pure_eq_ok]
    subst answerless
    have invT : (⟨T, r.issued⟩ : TableRun).Invariant := by
      have := inv.step (alloc, op)
      rw [hstep] at this
      simpa using this
    exact (gone.mono (TableRun.evolves_run invT later)).get_ne_ok

/-- A buffer for copies and for storage. -/
def sampleBuffer : BufferDesc := ⟨16, .union .STORAGE (.union .COPY_SRC .COPY_DST), by decide⟩

/-- A buffer is defined and released, and another takes its slot. -/
theorem generational_table_reuse :
    let r := TableRun.run ⟨ResourceTable.new 1 (by decide), []⟩ [(true, .defineBuffer sampleBuffer)]
    let T := (TableOp.run true (.releaseBuffer ⟨1, 0, 0⟩) r.table).2
    (TableRun.run ⟨T, r.issued⟩ [(true, .defineBuffer sampleBuffer)]).table.get
      (⟨1, 0, 0⟩ : BufferId) ≠ .ok sampleBuffer :=
  (generational_table 1 (by decide) [(true, .defineBuffer sampleBuffer)]).2.2.2.2.2 true
    (.releaseBuffer ⟨1, 0, 0⟩) none _ .buffer ⟨1, 0, 0⟩ rfl rfl
    [(true, .defineBuffer sampleBuffer)] sampleBuffer

end Sgfx
