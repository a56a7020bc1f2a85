import Sgfx.Hazards

/-!
# Storage exclusivity within a render pass

A draw that writes a resource through a storage binding excludes the other draws
of its pass from that resource.  Two mechanisms enforce it.  A later write is
compared with every resource an earlier draw used, whatever the mip level; a later
use is rejected because the earlier write is pending, level by level.  So a later
draw that uses only other levels of a written texture is accepted.

## Main Definitions

* `Execution.Apart` — neither of two draws writes a resource the other uses
* `DrawnInPass` — an earlier draw of the pass that is open at the end of a history
* `ExclusiveDraws` — the draws of every pass are apart
* `World.ReachesWrittenLevels` — a draw of a written texture uses the written level

## Main Results

* `exclusiveDraws_iff` — the draws of a recording are exclusive exactly when every
  accepted draw meets the condition
-/

namespace Sgfx

/-! ## Draws of one pass -/

/-- Neither command writes a resource that the other uses. -/
structure Execution.Apart (e f : Execution) : Prop where
  written : ∀ l ∈ e.storageWrites, ∀ u, f.Uses u → ¬ l.sameResource u
  used : ∀ l ∈ f.storageWrites, ∀ u, e.Uses u → ¬ l.sameResource u

/-- The command begins a render pass. -/
def Execution.BeginsPass (e : Execution) : Prop :=
  match e.command with
  | .beginRenderPass _ => True
  | _ => False

instance (e : Execution) : Decidable e.BeginsPass := by
  unfold Execution.BeginsPass
  split <;> infer_instance

/-- The command is a draw of a render pass. -/
def Execution.Draws (e : Execution) : Prop := e.command.drawKind.isSome = true

instance (e : Execution) : Decidable e.Draws :=
  inferInstanceAs (Decidable (_ = true))

/-- A draw of the history after which no render pass has begun. -/
def DrawnInPass (history : List Execution) (e : Execution) : Prop :=
  Since (fun x => x = e ∧ x.Draws) Execution.BeginsPass history

/-- Every draw is apart from the earlier draws of its pass. -/
def ExclusiveDraws (history : List Execution) : Prop :=
  Along (fun past f => f.Draws → ∀ e, DrawnInPass past e → e.Apart f) history

/-- An accepted draw that uses a texture, of which an earlier draw of the pass
wrote a level, uses that level as well. -/
def World.ReachesWrittenLevels (w : World) : Event → Prop
  | .call alloc c => w.Accepts alloc c → ∀ command ∈ c.passCommand,
      command.drawKind.isSome = true →
      ∀ e, DrawnInPass (executions w.log) e → ∀ texture level,
        .mip texture level ∈ e.storageWrites →
        (∃ a ∈ command.accesses w.table (bindingsAfter w.log),
          a.location.texture = some texture) →
        ∃ a ∈ command.accesses w.table (bindingsAfter w.log), a.location = .mip texture level
  | .table .. | .pass _ => True

/-! ## Keys and locations -/

/-- The key names the resource that the location belongs to. -/
def PendingWrite.names : PendingWrite → Location → Prop
  | .buffer id, .buffer other => id = other
  | .texture id, .mip other _ | .textureMip id _, .mip other _ => id = other
  | _, _ => False

theorem PendingWrite.aliases_of_names {w k : PendingWrite} {l u : Location} (hw : w.names l)
    (hk : k.names u) (same : l.sameResource u) : w.aliases k = true := by
  cases w <;> cases k <;> cases l <;> cases u <;>
    simp_all [names, aliases, Location.sameResource]

/-- Every access through a binding is named by one of its keys. -/
theorem exists_bindingKey {T : ResourceTable} {binding : BindingResource × BindingType}
    {a : AnnouncedAccess} (h : a ∈ bindingAccesses T binding) :
    ∃ k ∈ CommandEncoder.bindingKeys binding.1, k.names a.location := by
  obtain ⟨resource, ty⟩ := binding
  cases resource with
  | buffer buffer offset size =>
      rw [List.mem_singleton.mp h]
      exact ⟨_, List.mem_singleton_self _, rfl⟩
  | texture texture =>
      simp only [bindingAccesses, textureAccesses] at h
      split at h
      · obtain ⟨mip, -, rfl⟩ := List.mem_map.mp h
        exact ⟨_, List.mem_singleton_self _, rfl⟩
      · simp at h
  | textureView texture view =>
      obtain ⟨mip, hmip, rfl⟩ := List.mem_map.mp h
      exact ⟨_, List.mem_map.mpr ⟨mip, hmip, rfl⟩, rfl⟩
  | sampler sampler => simp [bindingAccesses] at h

theorem exists_layoutKey {T : ResourceTable} {bindings : List (BindingResource × BindingType)}
    {a : AnnouncedAccess} (h : a ∈ bindings.flatMap (bindingAccesses T)) :
    ∃ k ∈ bindings.flatMap fun binding => CommandEncoder.bindingKeys binding.1,
      k.names a.location := by
  obtain ⟨binding, hbinding, ha⟩ := List.mem_flatMap.mp h
  obtain ⟨k, hk, names⟩ := exists_bindingKey ha
  exact ⟨k, List.mem_flatMap.mpr ⟨binding, hbinding, hk⟩, names⟩

/-- Every storage write is named by a written key. -/
theorem Command.exists_writtenKey {T : ResourceTable} {b : Bindings} {command : Command}
    {l : Location} (h : l ∈ command.storageWrites T b) :
    ∃ k ∈ command.writtenKeys T b, k.names l := by
  obtain ⟨binding, hbinding, hlocation⟩ := List.mem_flatMap.mp h
  obtain ⟨a, ha, rfl⟩ := List.mem_map.mp hlocation
  obtain ⟨k, hk, names⟩ := exists_bindingKey ha
  exact ⟨k, List.mem_flatMap.mpr ⟨binding, hbinding, hk⟩, names⟩

theorem Bindings.exists_fixedKey {T : ResourceTable} {b : Bindings} {desc : RenderPipelineDesc}
    {indexed : Bool} {a : AnnouncedAccess} (h : a ∈ b.fixedAccesses T desc indexed) :
    ∃ k ∈ b.fixedKeys desc indexed, k.names a.location := by
  unfold fixedAccesses indexAccesses at h
  unfold fixedKeys
  rcases List.mem_append.mp h with h | h
  · rcases List.mem_append.mp h with h | h
    · split at h
      · obtain ⟨index, hindex, rfl⟩ := List.mem_map.mp h
        exact ⟨.buffer index.1, by simp_all, rfl⟩
      · simp at h
    · obtain ⟨vertex, hvertex, rfl⟩ := List.mem_map.mp h
      exact ⟨.buffer vertex.1, List.mem_append_left _ (List.mem_append_right _
        (List.mem_map.mpr ⟨vertex, hvertex, rfl⟩)), rfl⟩
  · obtain ⟨texture, htexture, ha⟩ := List.mem_flatMap.mp h
    refine ⟨.texture texture, List.mem_append_right _ (List.mem_map.mpr ⟨_, htexture, rfl⟩), ?_⟩
    simp only [textureAccesses] at ha
    split at ha
    · obtain ⟨mip, -, rfl⟩ := List.mem_map.mp ha
      rfl
    · simp at ha

theorem Bindings.exists_programmableKey {T : ResourceTable} {b : Bindings}
    {desc : ProgrammableRenderPipelineDesc} {indexed : Bool} {a : AnnouncedAccess}
    (h : a ∈ b.programmableAccesses T desc indexed) :
    ∃ k ∈ b.programmableKeys T desc indexed, k.names a.location := by
  unfold programmableAccesses indexAccesses at h
  unfold programmableKeys CommandEncoder.fetchKeys
  rcases List.mem_append.mp h with h | h
  · rcases List.mem_append.mp h with h | h
    · obtain ⟨k, hk, names⟩ := exists_layoutKey h
      exact ⟨k, List.mem_append_left _ hk, names⟩
    · obtain ⟨vertex, hvertex, rfl⟩ := List.mem_map.mp h
      exact ⟨.buffer vertex.1, List.mem_append_right _ (List.mem_append_left _
        (List.mem_map.mpr ⟨vertex, hvertex, rfl⟩)), rfl⟩
  · split at h
    · obtain ⟨index, hindex, rfl⟩ := List.mem_map.mp h
      refine ⟨.buffer index.1, List.mem_append_right _ (List.mem_append_right _ ?_), rfl⟩
      simp_all
    · simp at h

/-- Every access of a draw is named by a used key. -/
theorem Command.exists_usedKey {T : ResourceTable} {b : Bindings} {command : Command}
    {a : AnnouncedAccess} (draws : command.drawKind.isSome = true)
    (h : a ∈ command.accesses T b) : ∃ k ∈ command.usedKeys T b, k.names a.location := by
  have drawKeys : ∀ indexed, a ∈ b.drawAccesses T indexed →
      ∃ k ∈ b.drawKeys T indexed, k.names a.location := by
    intro indexed ha
    unfold Bindings.drawAccesses at ha
    unfold Bindings.drawKeys
    split at ha
    · rename_i pipeline
      simpa only [pipeline] using Bindings.exists_fixedKey ha
    · rename_i pipeline
      simpa only [pipeline] using Bindings.exists_programmableKey ha
    · simp at ha
  cases command with
  | draw | drawInstanced | drawIndexed | drawIndexedInstanced => exact drawKeys _ h
  | _ => cases draws

/-! ## Every run -/

theorem Command.accesses_normalise (command : Command) (T : ResourceTable) (b : Bindings) :
    command.normalise.accesses T b = command.accesses T b := by
  cases command with
  | setVertexBufferSlot | drawInstanced | drawIndexedInstanced =>
      rw [normalise]
      split <;> rfl
  | _ => rfl

theorem drawnInPass_snoc {history : List Execution} {x e : Execution} :
    DrawnInPass (history ++ [x]) e ↔
      (x = e ∧ x.Draws) ∨ (DrawnInPass history e ∧ ¬ x.BeginsPass) :=
  since_snoc

namespace World

/-- While a render pass is open, what its draws wrote is pending, and what they
used is remembered. -/
structure PassLedger (w : World) : Prop where
  pending : w.session.inRender = true → ∀ e, DrawnInPass (executions w.log) e →
    ∀ l ∈ e.storageWrites, w.session.encoder.Pending l
  used : w.session.inRender = true → ∀ e, DrawnInPass (executions w.log) e →
    ∀ u, e.Uses u → ∃ k ∈ w.session.usedResources, k.names u

theorem PassLedger.advance {w w' : World} {event : Event} (tracks : w.Tracks)
    (h : w.PassLedger) (advances : w.Advances event w') : w'.PassLedger := by
  cases advances with
  | table | pass | notBuilt | kept => exact ⟨h.pending, h.used⟩
  | dropped => exact ⟨Bool.noConfusion, Bool.noConfusion⟩
  | @recorded _ c command s' accept records asks =>
      -- A draw of the open pass is the command itself, or an earlier draw of a pass that
      -- was open before; then the command is no barrier.
      have earlier : s'.inRender = true → ∀ e,
          DrawnInPass (executions (w.log ++ [⟨w.table, command⟩])) e →
          (e = ⟨w.table, bindingsAfter w.log, command⟩ ∧ command.drawKind.isSome = true) ∨
            (DrawnInPass (executions w.log) e ∧ w.session.inRender = true ∧
              (command.drawKind.isSome = true ∨ command.setsState = true)) := by
        intro hp' e he
        rw [executions_snoc, drawnInPass_snoc] at he
        rcases he with ⟨rfl, draws⟩ | ⟨he, notBegin⟩
        · exact .inl ⟨rfl, draws⟩
        · rcases records.inPass hp' with ⟨desc, rfl⟩ | inPass
          · exact absurd trivial notBegin
          · exact .inr ⟨he, inPass⟩
      refine ⟨fun hp' e he l hl => ?_, fun hp' e he u hu => ?_⟩
      · rw [records.encoder.result]
        rcases earlier hp' e he with ⟨rfl, draws⟩ | ⟨he, hp, kind⟩
        · exact CommandEncoder.pending_of_storageWrite tracks.groupsFit hl
        · refine CommandEncoder.pending_recorded records.encoder.admissible ?_
            (h.pending hp e he l hl)
          rintro ⟨barrier, rfl, -⟩
          exact kind.elim Bool.noConfusion Bool.noConfusion
      · rw [records.used]
        rcases earlier hp' e he with ⟨rfl, draws⟩ | ⟨he, hp, kind⟩
        · rw [if_pos draws]
          obtain ⟨a, ha, rfl⟩ := hu
          obtain ⟨k, hk, names⟩ := Command.exists_usedKey draws ha
          exact ⟨k, List.mem_append_right _ hk, names⟩
        · obtain ⟨k, hk, names⟩ := h.used hp e he u hu
          refine ⟨k, ?_, names⟩
          rcases kind with draws | state
          · rw [if_pos draws]
            exact List.mem_append_left _ hk
          · split
            · exact List.mem_append_left _ hk
            · exact hk

theorem PassLedger.run (id : UInt64) (id_ne : id ≠ 0) (events : List Event) :
    ((World.new id id_ne).run events).PassLedger :=
  run_invariant ⟨Bool.noConfusion, Bool.noConfusion⟩
    (fun _ _ _ tracks h advances => h.advance tracks advances) events

/-- A recorded draw is apart from the earlier draws of its pass exactly when it
uses the written level of every written texture it uses. -/
theorem PassLedger.apart_iff {w : World} (h : w.PassLedger) {command : Command} {s' : Session}
    (records : w.session.Records w.table (bindingsAfter w.log) command s')
    (draws : command.drawKind.isSome = true) (hp : w.session.inRender = true) {e : Execution} (he : DrawnInPass (executions w.log) e) :
    e.Apart ⟨w.table, bindingsAfter w.log, command⟩ ↔
      ∀ texture level, .mip texture level ∈ e.storageWrites →
        (∃ a ∈ command.accesses w.table (bindingsAfter w.log),
          a.location.texture = some texture) →
        ∃ a ∈ command.accesses w.table (bindingsAfter w.log),
          a.location = .mip texture level := by
  -- No access of the draw is at a location an earlier draw wrote.
  have notWritten : ∀ a ∈ command.accesses w.table (bindingsAfter w.log),
      a.location ∉ e.storageWrites := by
    intro a ha written
    exact (records.encoder.admissible.admits a ha).2.synchronised (h.pending hp e he _ written)
  constructor
  · intro apart texture level written ⟨a, ha, htexture⟩
    refine absurd ?_ (apart.written _ written a.location ⟨a, ha, rfl⟩)
    cases hl : a.location <;> simp_all [Location.texture, Location.sameResource]
  · intro reaches
    refine ⟨fun l hl u hu same => ?_, fun l hl u hu same => ?_⟩
    · obtain ⟨a, ha, rfl⟩ := hu
      cases l with
      | buffer id =>
          cases hloc : a.location with
          | buffer other =>
              rw [hloc] at same
              obtain rfl : id = other := same
              exact notWritten a ha (hloc ▸ hl)
          | mip texture level => simp [hloc, Location.sameResource] at same
      | mip texture level =>
          have used : a.location.texture = some texture := by
            cases hloc : a.location <;>
              simp_all [Location.sameResource, Location.texture]
          obtain ⟨a', ha', hlocation⟩ := reaches texture level hl ⟨a, ha, used⟩
          exact notWritten a' ha' (hlocation ▸ hl)
    · obtain ⟨k, hk, names⟩ := h.used hp e he u hu
      obtain ⟨key, hkey, keyNames⟩ := Command.exists_writtenKey hl
      have unused := records.unused draws key hkey k hk
      rw [PendingWrite.aliases_of_names keyNames names same] at unused
      cases unused

/-- A draw is asked for in a render pass. -/
theorem inRender_of_draws {c : Call} {s : Session} {command : Command} (fits : c.fits s = true)
    (asked : command ∈ c.passCommand) (draws : command.drawKind.isSome = true) :
    s.inRender = true := by
  cases c with
  | encoder | endPass | dropPass => cases asked
  | beginRenderPass | beginComputePass =>
      obtain rfl := Option.some.inj asked
      cases draws
  | render c =>
      cases s with
      | render p => rfl
      | idle e | compute p => cases fits
  | compute c =>
      obtain rfl := Option.some.inj asked
      cases c <;> cases draws

theorem Command.not_draws_of_setsState {command : Command} (state : command.setsState = true) :
    command.drawKind.isSome = false := by
  cases command <;> first | rfl | cases state

/-- One event keeps the draws exclusive exactly when it meets the condition. -/
theorem exclusive_advance {w w' : World} {event : Event} (h : w.PassLedger)
    (advances : w.Advances event w') :
    ExclusiveDraws (executions w'.log) ↔
      ExclusiveDraws (executions w.log) ∧ w.ReachesWrittenLevels event := by
  cases advances with
  | table | pass | notBuilt => exact (and_iff_left trivial).symm
  | kept repeats =>
      refine (and_iff_left fun accepts command hc draws => ?_).symm
      obtain ⟨repeated, hrepeated, state, -⟩ := repeats accepts
      rw [Option.mem_unique hc hrepeated, Command.not_draws_of_setsState state] at draws
      cases draws
  | dropped leaves =>
      refine (and_iff_left fun accepts command hc => ?_).symm
      rw [Call.passCommand_of_leaves leaves] at hc
      cases hc
  | @recorded alloc c command s' accept records asks =>
      rw [executions_snoc, ExclusiveDraws, along_snoc]
      refine and_congr_right fun _ => ?_
      rcases asks.cases with ⟨asked, hasked, rfl⟩ | ⟨silent, notDraw, -, -⟩
      · constructor
        · intro apart _ other hother draws e he
          obtain rfl : asked = other := Option.mem_unique hasked hother
          have recorded := (Command.drawKind_normalise asked).symm ▸ draws
          have reaches := (h.apart_iff records recorded
            (inRender_of_draws accept.2.1 hasked draws) he).mp (apart recorded e he)
          rwa [Command.accesses_normalise] at reaches
        · intro reaches recorded e he
          have draws : asked.drawKind.isSome = true := by
            rw [← Command.drawKind_normalise]
            exact recorded
          refine (h.apart_iff records recorded
            (inRender_of_draws accept.2.1 hasked draws) he).mpr ?_
          rw [Command.accesses_normalise]
          exact reaches accept asked hasked draws e he
      · constructor
        · intro _ _ other hother
          rw [silent] at hother
          cases hother
        · intro _ draws
          rw [Execution.Draws, notDraw] at draws
          cases draws

end World

/-- **Storage exclusivity within a pass.**  The draws of a recording are apart
from the other draws of their passes exactly when every accepted draw that uses a
texture, of which an earlier draw of the pass wrote a level, uses that level as
well. -/
theorem exclusiveDraws_iff (id : UInt64) (id_ne : id ≠ 0) (events : List Event) :
    ExclusiveDraws (executions ((World.new id id_ne).run events).log) ↔
      Along (fun past event => ((World.new id id_ne).run past).ReachesWrittenLevels event)
        events := by
  induction events using List.reverseRecOn with
  | nil => exact ⟨fun _ => along_nil, fun _ => along_nil⟩
  | append_singleton events event ih =>
      have tracks := (World.new_tracks id id_ne).run events
      rw [World.run_snoc, along_snoc, ← ih]
      exact World.exclusive_advance (World.PassLedger.run id id_ne events)
        (World.step_advances tracks event)

/-! ### A draw of another level -/

/-- A texture of two levels, for shaders and copies. -/
def mippedTexture : TextureDesc where
  format := .rgba8Unorm
  extent := ⟨2, 2, by decide, by decide⟩
  usage := .union .SAMPLED (.union .STORAGE (.union .COPY_SRC .COPY_DST))
  mipLevelCount := 2
  arrayLayerCount := 1
  cubeCompatible := false
  dimension1d := false
  valid := by decide

/-- A texture to render to. -/
def colorTarget : TextureDesc where
  format := .rgba8Unorm
  extent := ⟨2, 2, by decide, by decide⟩
  usage := .RENDER_ATTACHMENT
  mipLevelCount := 1
  arrayLayerCount := 1
  cubeCompatible := false
  dimension1d := false
  valid := by decide

/-- One level of a texture. -/
def levelView (level : UInt32) : TextureViewDesc := ⟨.rgba8Unorm, .d2, level, 1, 0, 1⟩

/-- A layout with one storage view. -/
def writtenLevelLayout : BindGroupLayoutDesc :=
  singleLayout .FRAGMENT (.storageTexture .rgba8Unorm .writeOnly) (by decide)
    (by simp +contextual)

/-- A layout with one sampled view. -/
def sampledLevelLayout : BindGroupLayoutDesc :=
  singleLayout .FRAGMENT (.sampledTextureView .d2 false) (by decide) (by simp)

/-- A group that binds one level of the first texture. -/
def levelGroup (layout : BindGroupLayoutDesc) (level : UInt32) : BindGroupDesc :=
  ⟨layout, [⟨0, .textureView ⟨1, 0, 0⟩ (levelView level)⟩]⟩

/-- A pipeline without vertex buffers, of one descriptor set. -/
def levelPipeline (layout : BindGroupLayoutDesc) : ProgrammableRenderPipelineDesc where
  vertex := ⟨⟨1, 0, 0⟩, .vertex, "vs"⟩
  fragment := ⟨⟨1, 0, 0⟩, .fragment, "fs"⟩
  layout := ⟨[layout], [], by simp [MAX_BIND_GROUPS]⟩
  targetFormat := .rgba8Unorm
  vertexBuffers := []
  topology := .triangleList
  blend := .REPLACE
  raster := ⟨(0, 0), .none, .counterClockwise⟩
  depth := none
  colorWriteMask := .ALL
  additionalTargets := []
  valid := ⟨rfl, rfl, by decide, by decide, by simp, by decide⟩

/-- The whole of a two-by-two texture. -/
def wholeRect : PixelRect := ⟨0, 0, 2, 2, by decide⟩

theorem noExtraColors : ([] : List ColorAttachment).length < MAX_COLOR_ATTACHMENTS := by decide

/-- A pass that renders to the second texture. -/
def colorPass : RenderPassDesc := ⟨⟨1, 1, 0⟩, wholeRect, .load, .store, none, [], noExtraColors⟩

/-- In one pass, a draw writes level zero of the first texture and a second draw
samples its level one. -/
def writeThenSampleLevels : List Event :=
  [.table true (.defineTexture mippedTexture),
    .table true (.defineTexture colorTarget),
    .table true (.defineShaderModule emptyModule),
    .table true (.defineBindGroup (levelGroup writtenLevelLayout 0)),
    .table true (.defineBindGroup (levelGroup sampledLevelLayout 1)),
    .table true (.defineProgrammableRenderPipeline (levelPipeline writtenLevelLayout)),
    .table true (.defineProgrammableRenderPipeline (levelPipeline sampledLevelLayout)),
    .pass (.new ⟨1, 1, 0⟩ wholeRect .load .store),
    .call grantAll (.beginRenderPass colorPass),
    .call grantAll (.render (.setProgrammablePipeline ⟨1, 0, 0⟩)),
    .call grantAll (.render (.setBindGroup 0 ⟨1, 0, 0⟩)),
    .call grantAll (.render (.draw 3 0)),
    .call grantAll (.render (.setProgrammablePipeline ⟨1, 1, 0⟩)),
    .call grantAll (.render (.setBindGroup 0 ⟨1, 1, 0⟩)),
    .call grantAll (.render (.draw 3 0))]

/-- Both draws are recorded, so the draws of the pass are not exclusive. -/
theorem not_exclusiveDraws_levels :
    ¬ ExclusiveDraws
      (executions ((World.new 1 (by decide)).run writeThenSampleLevels).log) := by
  intro exclusive
  have apart := exclusive.getElem 6 (List.getElem?_eq_getElem (by decide +kernel))
    (by decide +kernel) _
    (.of_getElem 3 (List.getElem?_eq_getElem (by decide +kernel)) ⟨rfl, by decide +kernel⟩
      (by decide +kernel))
  exact apart.written (.mip ⟨1, 0, 0⟩ 0) (by decide +kernel) (.mip ⟨1, 0, 0⟩ 1)
    ⟨.texture ⟨1, 0, 0⟩ 1 .sampled, by decide +kernel, rfl⟩ rfl

theorem exclusiveDraws_iff_levels :
    ExclusiveDraws (executions ((World.new 1 (by decide)).run writeThenSampleLevels).log) ↔
      Along (fun past event =>
        ((World.new 1 (by decide)).run past).ReachesWrittenLevels event) writeThenSampleLevels :=
  exclusiveDraws_iff 1 (by decide) writeThenSampleLevels

end Sgfx
