import Sgfx.Abi.CommandReading
import Sgfx.Session

/-!
# Pass descriptors in another table

A pass descriptor is built step by step, each step against the table as it is then, and is built
again in one go when it is read.  Whether that succeeds depends on the textures that it names and
on nothing else: `RenderPassDesc.Sound` says what the constructors check, of textures that are
given, in no particular order.

A descriptor that was built once is remembered with the textures it was built for; it fits every
later table in which these are still there.

## Main Definitions

* `RenderPassDesc.targets`, `RenderPassDesc.retarget`
* `RenderPassDesc.Sound`, `RenderPassDesc.Fits`
* `ResourceTable.Remembers` — a descriptor that was built earlier

## Main Results

* `rebuildPass_eq_ok` — the descriptors that can be built
* `PassBuilder.remembers`, `Remembers.fits`
-/

namespace Sgfx

/-! ## Descriptors -/

namespace RenderPassDesc

/-- The textures of the attachments. -/
def targets (d : RenderPassDesc) : List TextureId :=
  d.colorAttachments.map ColorAttachment.target ++ d.depth.toList.map DepthAttachment.target

/-- Descriptors with the same attachments are the same. -/
theorem eq_of_parts {d d' : RenderPassDesc} (target : d.target = d'.target)
    (area : d.area = d'.area) (load : d.load = d'.load) (store : d.store = d'.store)
    (depth : d.depth = d'.depth) (extra : d.extraColors = d'.extraColors) : d = d' := by
  cases d
  cases d'
  subst target area load store depth extra
  rfl

/-- The descriptor with another depth attachment. -/
def setDepth (d : RenderPassDesc) (depth : Option DepthAttachment) : RenderPassDesc :=
  { d with depth := depth }

end RenderPassDesc

/-- The attachment with the identities of another table. -/
def ColorAttachment.retarget (owner : UInt64) (a : ColorAttachment) : ColorAttachment :=
  { a with target := a.target.retarget owner }

def DepthAttachment.retarget (owner : UInt64) (a : DepthAttachment) : DepthAttachment :=
  { a with target := a.target.retarget owner }

/-- The descriptor with the identities of another table. -/
def RenderPassDesc.retarget (owner : UInt64) (d : RenderPassDesc) : RenderPassDesc where
  target := d.target.retarget owner
  area := d.area
  load := d.load
  store := d.store
  depth := d.depth.map (DepthAttachment.retarget owner)
  extraColors := d.extraColors.map (ColorAttachment.retarget owner)
  extra_le := by
    rw [List.length_map]
    exact d.extra_le

theorem RenderPassDesc.colorAttachments_retarget (d : RenderPassDesc) (owner : UInt64) :
    (d.retarget owner).colorAttachments = d.colorAttachments.map (ColorAttachment.retarget owner) :=
  rfl

theorem RenderPassDesc.targets_retarget (d : RenderPassDesc) (owner : UInt64) :
    (d.retarget owner).targets = d.targets.map (Id.retarget owner) := by
  unfold RenderPassDesc.targets
  rw [List.map_append, colorAttachments_retarget, List.map_map, List.map_map]
  congr 1
  cases h : d.depth <;> simp [RenderPassDesc.retarget, h, DepthAttachment.retarget]

/-! ## What the constructors check -/

/-- A texture that can be a colour attachment, of an area. -/
structure TextureDesc.Colors (texture : TextureDesc) (area : PixelRect) : Prop where
  format : texture.format ≠ .depth32Float
  layers : texture.arrayLayerCount = 1
  usage : texture.usage.contains .RENDER_ATTACHMENT = true
  inside : area.isWithin texture.extent = true

/-- A texture that can be the depth attachment, of an area. -/
structure TextureDesc.Depths (texture : TextureDesc) (area : PixelRect) : Prop where
  format : texture.format = .depth32Float
  layers : texture.arrayLayerCount = 1
  usage : texture.usage.contains .RENDER_ATTACHMENT = true
  inside : area.isWithin texture.extent = true

/-- What a depth attachment does to its texture. -/
def DepthAttachment.Loads (a : DepthAttachment) : Prop :=
  a.load.valid = true ∧ (a.readOnly = true → a.load.isClear = false)

namespace RenderPassDesc

/-- The descriptor is one for these textures. -/
structure Sound (K : TextureId → TextureDesc) (d : RenderPassDesc) : Prop where
  colors : ∀ a ∈ d.colorAttachments, (K a.target).Colors d.area ∧
    (K a.target).extent = (K d.target).extent
  distinct : (d.colorAttachments.map ColorAttachment.target).Nodup
  depth : ∀ a ∈ d.depth, (K a.target).Depths d.area ∧
    (K a.target).extent = (K d.target).extent ∧ a.Loads

/-- The descriptor is one for the textures of the table. -/
def Fits (T : ResourceTable) (d : RenderPassDesc) : Prop :=
  ∃ K, d.Sound K ∧ ∀ id ∈ d.targets, T.texture id = .ok (K id)

/-- The texture can be one more colour attachment. -/
def Admits (T : ResourceTable) (d : RenderPassDesc) (target : TextureId) : Prop :=
  ∃ texture first, T.texture target = .ok texture ∧ texture.Colors d.area ∧
    T.texture d.target = .ok first ∧ texture.extent = first.extent

/-- The texture can be the depth attachment. -/
def AdmitsDepth (T : ResourceTable) (d : RenderPassDesc) (target : TextureId) : Prop :=
  ∃ texture first, T.texture target = .ok texture ∧ texture.Depths d.area ∧
    T.texture d.target = .ok first ∧ texture.extent = first.extent

/-- The second descriptor has these colour attachments more. -/
structure Extends (d : RenderPassDesc) (extra : List ColorAttachment) (d' : RenderPassDesc) :
    Prop where
  target : d'.target = d.target
  area : d'.area = d.area
  load : d'.load = d.load
  store : d'.store = d.store
  depth : d'.depth = d.depth
  extraColors : d'.extraColors = d.extraColors ++ extra

variable {T : ResourceTable} {d mid d' : RenderPassDesc} {extra more : List ColorAttachment}

theorem Extends.colorAttachments (h : d.Extends extra d') :
    d'.colorAttachments = d.colorAttachments ++ extra := by
  unfold RenderPassDesc.colorAttachments
  rw [h.target, h.load, h.store, h.extraColors]
  rfl

theorem Extends.trans (first : d.Extends extra mid) (second : mid.Extends more d') :
    d.Extends (extra ++ more) d' where
  target := second.target.trans first.target
  area := second.area.trans first.area
  load := second.load.trans first.load
  store := second.store.trans first.store
  depth := second.depth.trans first.depth
  extraColors := by rw [second.extraColors, first.extraColors, List.append_assoc]

/-- What is added after the first attachments. -/
theorem Extends.remaining (whole : d.Extends (extra ++ more) d') (first : d.Extends extra mid) :
    mid.Extends more d' where
  target := whole.target.trans first.target.symm
  area := whole.area.trans first.area.symm
  load := whole.load.trans first.load.symm
  store := whole.store.trans first.store.symm
  depth := whole.depth.trans first.depth.symm
  extraColors := by rw [whole.extraColors, first.extraColors, List.append_assoc]

theorem Extends.refl (d : RenderPassDesc) : d.Extends [] d :=
  ⟨rfl, rfl, rfl, rfl, rfl, (List.append_nil _).symm⟩

/-- A descriptor is extended in one way. -/
theorem Extends.unique {d'' : RenderPassDesc} (h : d.Extends extra d') (h' : d.Extends extra d'') :
    d' = d'' :=
  eq_of_parts (h.target.trans h'.target.symm) (h.area.trans h'.area.symm)
    (h.load.trans h'.load.symm) (h.store.trans h'.store.symm) (h.depth.trans h'.depth.symm)
    (h.extraColors.trans h'.extraColors.symm)

/-- The descriptor with one more colour attachment. -/
def added (d : RenderPassDesc) (a : ColorAttachment)
    (room : d.extraColors.length + 1 < MAX_COLOR_ATTACHMENTS) : RenderPassDesc :=
  { d with
    extraColors := d.extraColors ++ [a]
    extra_le := by simpa using room }

theorem extends_added (d : RenderPassDesc) (a : ColorAttachment)
    (room : d.extraColors.length + 1 < MAX_COLOR_ATTACHMENTS) : d.Extends [a] (d.added a room) :=
  ⟨rfl, rfl, rfl, rfl, rfl, rfl⟩

theorem mem_targets_of_color {a : ColorAttachment} (h : a ∈ d.colorAttachments) :
    a.target ∈ d.targets :=
  List.mem_append_left _ (List.mem_map_of_mem h)

theorem mem_targets_of_depth {a : DepthAttachment} (h : a ∈ d.depth) : a.target ∈ d.targets :=
  List.mem_append_right _ (List.mem_map_of_mem (Option.mem_toList.mpr h))

theorem target_mem_targets (d : RenderPassDesc) : d.target ∈ d.targets :=
  mem_targets_of_color (a := ⟨d.target, d.load, d.store⟩) List.mem_cons_self

/-- The descriptor fits a table where each attachment does. -/
theorem fits_iff : d.Fits T ↔ (∀ a ∈ d.colorAttachments, d.Admits T a.target) ∧
    (d.colorAttachments.map ColorAttachment.target).Nodup ∧
    ∀ a ∈ d.depth, d.AdmitsDepth T a.target ∧ a.Loads := by
  constructor
  · rintro ⟨K, sound, known⟩
    have first := known _ d.target_mem_targets
    refine ⟨fun a inside => ?_, sound.distinct, fun a inside => ?_⟩
    · obtain ⟨colors, same⟩ := sound.colors a inside
      exact ⟨_, _, known _ (mem_targets_of_color inside), colors, first, same⟩
    · obtain ⟨depths, same, loads⟩ := sound.depth a inside
      exact ⟨⟨_, _, known _ (mem_targets_of_depth inside), depths, first, same⟩, loads⟩
  · rintro ⟨colors, distinct, depth⟩
    obtain ⟨-, first, -, -, hfirst, -⟩ := colors ⟨d.target, d.load, d.store⟩ List.mem_cons_self
    -- A texture that the table does not have may be taken for any other.
    let K : TextureId → TextureDesc := fun id =>
      match T.texture id with
      | .ok texture => texture
      | .error _ => first
    have known : ∀ {id texture}, T.texture id = .ok texture → K id = texture := by
      intro id texture found
      simp only [K, found]
    refine ⟨K, ⟨fun a inside => ?_, distinct, fun a inside => ?_⟩, fun id inside => ?_⟩
    · obtain ⟨texture, _, found, checked, hfirst', same⟩ := colors a inside
      rw [known found, known hfirst']
      exact ⟨checked, same⟩
    · obtain ⟨⟨texture, _, found, checked, hfirst', same⟩, loads⟩ := depth a inside
      rw [known found, known hfirst']
      exact ⟨checked, same, loads⟩
    · have present : ∃ texture, T.texture id = .ok texture := by
        rcases List.mem_append.mp inside with color | depth'
        · obtain ⟨a, member, rfl⟩ := List.mem_map.mp color
          obtain ⟨texture, -, found, -⟩ := colors a member
          exact ⟨texture, found⟩
        · obtain ⟨a, member, rfl⟩ := List.mem_map.mp depth'
          obtain ⟨⟨texture, -, found, -⟩, -⟩ := depth a (Option.mem_toList.mp member)
          exact ⟨texture, found⟩
      obtain ⟨texture, found⟩ := present
      rw [found, known found]

theorem Extends.admits {target : TextureId} (h : d.Extends extra d') :
    d'.Admits T target ↔ d.Admits T target := by
  unfold Admits
  rw [h.target, h.area]

end RenderPassDesc

section Constructors

open RenderPassDesc

variable {T : ResourceTable} {d d' : RenderPassDesc} {target : TextureId} {area : PixelRect}
  {loading : LoadOp} {storing : StoreOp}

theorem checkColor_eq_ok {u : Unit} : checkColor T target area = .ok u ↔
    ∃ texture, T.texture target = .ok texture ∧ texture.Colors area := by
  simp only [checkColor, except_bind_eq_ok, failIf_eq_ok, not_or, not_not, Bool.not_eq_false]
  constructor
  · rintro ⟨texture, found, -, ⟨format, layers⟩, -, usage, inside⟩
    exact ⟨texture, found, format, layers, usage, inside⟩
  · rintro ⟨texture, found, colors⟩
    exact ⟨texture, found, (), ⟨colors.format, colors.layers⟩, (), colors.usage, colors.inside⟩

theorem new_eq_ok : RenderPassDesc.new T target area loading storing = .ok d ↔
    (∃ texture, T.texture target = .ok texture ∧ texture.Colors area) ∧
      d = ⟨target, area, loading, storing, none, [], by decide⟩ := by
  rw [RenderPassDesc.new, except_bind_eq_ok]
  constructor
  · rintro ⟨_, checked, built⟩
    exact ⟨checkColor_eq_ok.mp checked, (Except.ok.inj built).symm⟩
  · rintro ⟨checked, rfl⟩
    exact ⟨(), checkColor_eq_ok.mpr checked, rfl⟩

/-- One more colour attachment. -/
theorem withColorAttachment_eq_ok :
    d.withColorAttachment T target loading storing = .ok d' ↔
      d.Admits T target ∧ target ∉ d.colorAttachments.map ColorAttachment.target ∧
        d.Extends [⟨target, loading, storing⟩] d' := by
  simp only [withColorAttachment, except_bind_eq_ok, failIf_eq_ok, new_eq_ok, not_not,
    Bool.not_eq_true, List.any_eq_false]
  constructor
  · rintro ⟨_, ⟨⟨texture, found, colors⟩, -⟩, texture', found', first, hfirst, -, same, -, distinct,
      built⟩
    obtain rfl := Except.ok.inj (found.symm.trans found')
    split at built
    · cases built
      refine ⟨⟨texture, first, found, colors, hfirst, same⟩, ?_, ⟨rfl, rfl, rfl, rfl, rfl, rfl⟩⟩
      rintro member
      obtain ⟨a, inside, rfl⟩ := List.mem_map.mp member
      exact beq_eq_false_iff_ne.mp (distinct a inside) rfl
    · cases built
  · rintro ⟨⟨texture, first, found, colors, hfirst, same⟩, fresh, extends'⟩
    refine ⟨_, ⟨⟨texture, found, colors⟩, rfl⟩, texture, found, first, hfirst, (), same, (), ?_, ?_⟩
    · intro a inside
      exact beq_eq_false_iff_ne.mpr fun equal => fresh (List.mem_map.mpr ⟨a, inside, equal⟩)
    · have room : d.extraColors.length + 1 < MAX_COLOR_ATTACHMENTS := by
        have le := d'.extra_le
        rwa [extends'.extraColors, List.length_append] at le
      rw [dif_pos room]
      exact congrArg Except.ok ((extends_added d _ room).unique extends')

/-- A depth attachment, which replaces any other. -/
theorem withDepthAttachment_eq_ok {loads : DepthLoadOp} :
    d.withDepthAttachment T target loads storing = .ok d' ↔
      d.AdmitsDepth T target ∧ loads.valid = true ∧
        d' = d.setDepth (some ⟨target, loads, storing, false⟩) := by
  simp only [withDepthAttachment, except_bind_eq_ok, failIf_eq_ok, not_or, not_not,
    Bool.not_eq_false]
  constructor
  · rintro ⟨texture, found, first, hfirst, -, ⟨format, layers⟩, -, usage, -, ⟨same, inside⟩, -,
      valid, built⟩
    exact ⟨⟨texture, first, found, ⟨format, layers, usage, inside⟩, hfirst, same⟩, valid,
      (Except.ok.inj built).symm⟩
  · rintro ⟨⟨texture, first, found, depths, hfirst, same⟩, valid, rfl⟩
    exact ⟨texture, found, first, hfirst, (), ⟨depths.format, depths.layers⟩, (), depths.usage, (),
      ⟨same, depths.inside⟩, (), valid, rfl⟩

theorem withReadOnlyDepth_eq_ok : d.withReadOnlyDepth = .ok d' ↔
    ∃ a, d.depth = some a ∧ a.load.isClear = false ∧
      d' = d.setDepth (some { a with readOnly := true }) := by
  simp only [withReadOnlyDepth, except_bind_eq_ok, failIf_eq_ok, okOr_eq_ok, Bool.not_eq_true]
  constructor
  · rintro ⟨a, here, -, unclear, built⟩
    exact ⟨a, here, unclear, (Except.ok.inj built).symm⟩
  · rintro ⟨a, here, unclear, rfl⟩
    exact ⟨a, here, (), unclear, rfl⟩

end Constructors

/-! ## Building again -/

namespace Abi

variable {T : ResourceTable}

theorem own_eq_ok {c : Category} {id id' : Id c} : own T id = .ok id' ↔
    id' = id.retarget T.id ∧ ∃ d, T.get (id.retarget T.id) = .ok d :=
  ResourceTable.ref_eq_ok

/-- The colour attachments that are added to a descriptor. -/
theorem rebuildColors_eq_ok {attachments : List ColorAttachment} {d d' : RenderPassDesc}
    (distinct : (d.colorAttachments.map ColorAttachment.target).Nodup) :
    rebuildColors T attachments d = .ok d' ↔
      (∀ a ∈ attachments, d.Admits T (a.target.retarget T.id)) ∧
      (d'.colorAttachments.map ColorAttachment.target).Nodup ∧
      d.Extends (attachments.map (ColorAttachment.retarget T.id)) d' := by
  induction attachments generalizing d with
  | nil =>
    constructor
    · intro built
      cases built
      exact ⟨fun a inside => absurd inside List.not_mem_nil, distinct, RenderPassDesc.Extends.refl _⟩
    · rintro ⟨-, -, same⟩
      exact congrArg Except.ok (RenderPassDesc.Extends.unique (RenderPassDesc.Extends.refl _) same)
  | cons a rest ih =>
    have step : ∀ mid, d.Extends [a.retarget T.id] mid →
        a.target.retarget T.id ∉ d.colorAttachments.map ColorAttachment.target →
          (mid.colorAttachments.map ColorAttachment.target).Nodup := by
      intro mid extended fresh
      rw [extended.colorAttachments, List.map_append]
      refine List.nodup_append.mpr ⟨distinct, List.pairwise_singleton _ _, fun b inside c same => ?_⟩
      rintro rfl
      have added : b = a.target.retarget T.id := List.mem_singleton.mp same
      exact fresh (added ▸ inside)
    simp only [rebuildColors, except_bind_eq_ok, own_eq_ok, withColorAttachment_eq_ok]
    constructor
    · rintro ⟨_, ⟨rfl, -⟩, mid, ⟨admitted, fresh, extended⟩, later⟩
      obtain ⟨others, distinct', extended'⟩ := (ih (step mid extended fresh)).mp later
      refine ⟨List.forall_mem_cons.mpr ⟨admitted, fun b inside => ?_⟩, distinct',
        extended.trans extended'⟩
      exact extended.admits.mp (others b inside)
    · rintro ⟨admitted, distinct', extended⟩
      obtain ⟨first, others⟩ := List.forall_mem_cons.mp admitted
      have room : d.extraColors.length + 1 < MAX_COLOR_ATTACHMENTS := by
        have le := d'.extra_le
        rw [extended.extraColors, List.length_append, List.length_map, List.length_cons] at le
        omega
      have here := RenderPassDesc.extends_added d (a.retarget T.id) room
      generalize d.added (a.retarget T.id) room = mid at here
      have fresh : a.target.retarget T.id ∉ d.colorAttachments.map ColorAttachment.target := by
        rw [extended.colorAttachments, List.map_append, List.nodup_append] at distinct'
        intro inside
        refine distinct'.2.2 _ inside (a.retarget T.id).target ?_ rfl
        exact List.mem_map_of_mem (List.mem_map_of_mem List.mem_cons_self)
      have later : mid.Extends (rest.map (ColorAttachment.retarget T.id)) d' :=
        extended.remaining here
      obtain ⟨texture, -, found, -⟩ := id first
      refine ⟨_, ⟨rfl, texture, found⟩, mid, ⟨first, fresh, here⟩, ?_⟩
      exact (ih (step mid here fresh)).mpr
        ⟨fun b inside => here.admits.mpr (others b inside), distinct', later⟩

/-- The last step of a depth attachment. -/
theorem readOnly_eq_ok {d d' : RenderPassDesc} {target : TextureId} {loads : DepthLoadOp}
    {storing : StoreOp} {readOnly : Bool} :
    (if readOnly = true then
        (d.setDepth (some ⟨target, loads, storing, false⟩)).withReadOnlyDepth
      else .ok (d.setDepth (some ⟨target, loads, storing, false⟩))) = .ok d' ↔
      (readOnly = true → loads.isClear = false) ∧
        d' = d.setDepth (some ⟨target, loads, storing, readOnly⟩) := by
  cases readOnly with
  | false =>
    rw [if_neg Bool.false_ne_true, Except.ok.injEq]
    exact ⟨fun same => ⟨fun reads => absurd reads Bool.false_ne_true, same.symm⟩, fun h => h.2.symm⟩
  | true =>
    rw [if_pos rfl, withReadOnlyDepth_eq_ok]
    constructor
    · rintro ⟨a, here, unclear, rfl⟩
      cases here
      exact ⟨fun _ => unclear, rfl⟩
    · rintro ⟨unclear, rfl⟩
      exact ⟨_, rfl, unclear rfl, rfl⟩

/-- The depth attachment of a descriptor that has none yet. -/
theorem rebuildDepth_eq_ok {depth : Option DepthAttachment} {d d' : RenderPassDesc}
    (fresh : d.depth = none) :
    rebuildDepth T d depth = .ok d' ↔
      (∀ a ∈ depth, d.AdmitsDepth T (a.target.retarget T.id) ∧ a.Loads) ∧
        d' = d.setDepth (depth.map (DepthAttachment.retarget T.id)) := by
  cases depth with
  | none =>
    have same : d.setDepth none = d := RenderPassDesc.eq_of_parts rfl rfl rfl rfl fresh.symm rfl
    simp [rebuildDepth, same, eq_comm]
  | some a =>
    simp only [rebuildDepth, except_bind_eq_ok, own_eq_ok, withDepthAttachment_eq_ok,
      Option.mem_some_iff, forall_eq']
    constructor
    · rintro ⟨_, ⟨rfl, -⟩, mid, ⟨admitted, valid, rfl⟩, built⟩
      obtain ⟨unclear, rfl⟩ := readOnly_eq_ok.mp built
      exact ⟨⟨admitted, valid, unclear⟩, rfl⟩
    · rintro ⟨⟨admitted, valid, unclear⟩, rfl⟩
      obtain ⟨texture, -, found, -⟩ := id admitted
      exact ⟨_, ⟨rfl, texture, found⟩, _, ⟨admitted, valid, rfl⟩, readOnly_eq_ok.mpr ⟨unclear, rfl⟩⟩

/-- A descriptor is built again exactly if it fits the table, and is then the same. -/
theorem rebuildPass_eq_ok {d d' : RenderPassDesc} : rebuildPass T d = .ok d' ↔
    d' = d.retarget T.id ∧ (d.retarget T.id).Fits T := by
  rw [RenderPassDesc.fits_iff]
  simp only [rebuildPass, except_bind_eq_ok, own_eq_ok, new_eq_ok]
  have single : ∀ {first : RenderPassDesc}, first.extraColors = [] →
      (first.colorAttachments.map ColorAttachment.target).Nodup := by
    intro first none
    simp [RenderPassDesc.colorAttachments, none]
  constructor
  · rintro ⟨_, ⟨rfl, -⟩, first, ⟨⟨texture, found, colors⟩, rfl⟩, mid, hcolors, hdepth⟩
    obtain ⟨others, distinct, extended⟩ := (rebuildColors_eq_ok (single rfl)).mp hcolors
    obtain ⟨depth, rfl⟩ := (rebuildDepth_eq_ok extended.depth).mp hdepth
    refine ⟨RenderPassDesc.eq_of_parts extended.target extended.area extended.load extended.store
      rfl extended.extraColors, ?_, ?_, ?_⟩
    · refine List.forall_mem_cons.mpr ⟨⟨texture, texture, found, colors, found, rfl⟩, ?_⟩
      exact List.forall_mem_map.mpr others
    · rw [extended.colorAttachments] at distinct
      exact distinct
    · rintro a inside
      obtain ⟨b, here, rfl⟩ := Option.map_eq_some_iff.mp inside
      obtain ⟨⟨texture, first, found, depths, hfirst, same⟩, loads⟩ := depth b here
      rw [extended.area] at depths
      rw [extended.target] at hfirst
      exact ⟨⟨texture, first, found, depths, hfirst, same⟩, loads⟩
  · rintro ⟨rfl, colors, distinct, depth⟩
    obtain ⟨⟨texture, -, found, checked, -⟩, others⟩ := List.forall_mem_cons.mp colors
    refine ⟨_, ⟨rfl, texture, found⟩, _, ⟨⟨texture, found, checked⟩, rfl⟩,
      (d.retarget T.id).setDepth none, ?_, ?_⟩
    · refine (rebuildColors_eq_ok (single rfl)).mpr ⟨?_, distinct, rfl, rfl, rfl, rfl, rfl, rfl⟩
      exact fun a inside => others _ (List.mem_map_of_mem inside)
    · refine (rebuildDepth_eq_ok rfl).mpr ⟨fun a here => ?_, rfl⟩
      exact depth _ (Option.map_eq_some_iff.mpr ⟨a, here, rfl⟩)

end Abi

/-! ## Descriptors that were built earlier -/

/-- Each texture of the descriptor is the one it was built for, or is gone. -/
def ResourceTable.Remembers (T : ResourceTable) (d : RenderPassDesc) : Prop :=
  ∃ K, d.Sound K ∧ ∀ id ∈ d.targets, T.texture id = .ok (K id) ∨ T.Gone id

section Remembering

open ResourceTable

variable {T T' : ResourceTable} {d d' : RenderPassDesc}

theorem ResourceTable.Remembers.mono (h : T.Remembers d) (evolves : T.Evolves T') :
    T'.Remembers d := by
  obtain ⟨K, sound, known⟩ := h
  refine ⟨K, sound, fun id inside => ?_⟩
  rcases known id inside with live | gone
  · exact evolves.get live
  · exact .inr (gone.mono evolves)

/-- What was built fits while its textures are there. -/
theorem ResourceTable.Remembers.fits (h : T.Remembers d)
    (live : ∀ id ∈ d.targets, ∃ texture, T.texture id = .ok texture) : d.Fits T := by
  obtain ⟨K, sound, known⟩ := h
  refine ⟨K, sound, fun id inside => ?_⟩
  rcases known id inside with here | gone
  · exact here
  · obtain ⟨texture, found⟩ := live id inside
    exact absurd found gone.get_ne_ok

theorem RenderPassDesc.Sound.congr {K L : TextureId → TextureDesc} (h : d.Sound K)
    (same : ∀ id ∈ d.targets, L id = K id) : d.Sound L where
  colors a inside := by
    rw [same _ (mem_targets_of_color inside), same _ d.target_mem_targets]
    exact h.colors a inside
  distinct := h.distinct
  depth a inside := by
    rw [same _ (mem_targets_of_depth inside), same _ d.target_mem_targets]
    exact h.depth a inside

/-- A texture that is there is the one that is remembered. -/
theorem remembered_eq {K : TextureId → TextureDesc} {id : TextureId} {texture : TextureDesc}
    (known : T.texture id = .ok (K id) ∨ T.Gone id) (found : T.texture id = .ok texture) :
    texture = K id := by
  rcases known with live | gone
  · exact Except.ok.inj (found.symm.trans live)
  · exact absurd found gone.get_ne_ok

/-- A descriptor is remembered together with any texture that is there. -/
theorem ResourceTable.Remembers.beside {target : TextureId} {texture : TextureDesc}
    (h : T.Remembers d) (found : T.texture target = .ok texture) :
    ∃ K, d.Sound K ∧ (∀ id ∈ d.targets, T.texture id = .ok (K id) ∨ T.Gone id) ∧
      K target = texture := by
  obtain ⟨K, sound, known⟩ := h
  have same : ∀ id ∈ d.targets, Function.update K target texture id = K id := by
    intro id inside
    by_cases equal : id = target
    · subst equal
      rw [Function.update_self]
      exact remembered_eq (known id inside) found
    · exact Function.update_of_ne equal ..
  refine ⟨Function.update K target texture, sound.congr same, fun id inside => ?_,
    Function.update_self ..⟩
  rw [same id inside]
  exact known id inside

theorem remembers_new {target : TextureId} {area : PixelRect} {loading : LoadOp}
    {storing : StoreOp} (built : RenderPassDesc.new T target area loading storing = .ok d) :
    T.Remembers d := by
  obtain ⟨⟨texture, found, colors⟩, rfl⟩ := new_eq_ok.mp built
  refine ⟨fun _ => texture, ⟨fun _ _ => ⟨colors, rfl⟩, List.pairwise_singleton _ _, fun a inside => ?_⟩,
    ?_⟩
  · cases inside
  · intro id inside
    rw [List.mem_singleton.mp inside]
    exact .inl found

theorem remembers_withColorAttachment {target : TextureId} {loading : LoadOp} {storing : StoreOp}
    (h : T.Remembers d) (built : d.withColorAttachment T target loading storing = .ok d') :
    T.Remembers d' := by
  obtain ⟨⟨texture, first, found, colors, hfirst, same⟩, fresh, extended⟩ :=
    withColorAttachment_eq_ok.mp built
  obtain ⟨K, sound, known, beside⟩ := h.beside found
  have targets : ∀ id ∈ d'.targets, id ∈ d.targets ∨ id = target := by
    intro id inside
    unfold RenderPassDesc.targets at inside ⊢
    rw [extended.colorAttachments, extended.depth] at inside
    simp only [List.map_append, List.mem_append, List.map_cons, List.map_nil, List.mem_singleton]
      at inside ⊢
    tauto
  have hfirst' := remembered_eq (known _ d.target_mem_targets) hfirst
  refine ⟨K, ⟨fun a inside => ?_, ?_, fun a inside => ?_⟩, fun id inside => ?_⟩
  · rw [extended.area, extended.target]
    rw [extended.colorAttachments, List.mem_append, List.mem_singleton] at inside
    rcases inside with inside | rfl
    · exact sound.colors a inside
    · rw [beside, ← hfirst']
      exact ⟨colors, same⟩
  · rw [extended.colorAttachments, List.map_append]
    refine List.nodup_append.mpr ⟨sound.distinct, List.pairwise_singleton _ _, fun b inside c last => ?_⟩
    rintro rfl
    have added : b = target := List.mem_singleton.mp last
    exact fresh (added ▸ inside)
  · rw [extended.depth] at inside
    rw [extended.area, extended.target]
    exact sound.depth a inside
  · rcases targets id inside with inside | rfl
    · exact known id inside
    · rw [beside]
      exact .inl found

theorem remembers_withDepthAttachment {target : TextureId} {loads : DepthLoadOp} {storing : StoreOp}
    (h : T.Remembers d) (built : d.withDepthAttachment T target loads storing = .ok d') :
    T.Remembers d' := by
  obtain ⟨⟨texture, first, found, depths, hfirst, same⟩, valid, rfl⟩ :=
    withDepthAttachment_eq_ok.mp built
  obtain ⟨K, sound, known, beside⟩ := h.beside found
  have hfirst' := remembered_eq (known _ d.target_mem_targets) hfirst
  refine ⟨K, ⟨sound.colors, sound.distinct, fun a inside => ?_⟩, fun id inside => ?_⟩
  · cases inside
    refine ⟨?_, ?_, valid, fun reads => absurd reads Bool.false_ne_true⟩
    · rw [beside]
      exact depths
    · rw [beside]
      exact same.trans (congrArg _ hfirst')
  · rcases List.mem_append.mp inside with color | depth
    · exact known id (List.mem_append_left _ color)
    · obtain rfl : id = target := List.mem_singleton.mp depth
      rw [beside]
      exact .inl found

theorem remembers_withReadOnlyDepth (h : T.Remembers d) (built : d.withReadOnlyDepth = .ok d') :
    T.Remembers d' := by
  obtain ⟨a, here, unclear, rfl⟩ := withReadOnlyDepth_eq_ok.mp built
  obtain ⟨K, sound, known⟩ := h
  obtain ⟨depths, same, valid, -⟩ := sound.depth a here
  refine ⟨K, ⟨sound.colors, sound.distinct, fun b inside => ?_⟩, fun id inside => known id ?_⟩
  · cases inside
    exact ⟨depths, same, valid, fun _ => unclear⟩
  · unfold RenderPassDesc.targets at inside ⊢
    rw [here]
    exact inside

/-- What a client builds is remembered. -/
theorem PassBuilder.remembers {builder : PassBuilder}
    (h : ∀ d ∈ builder.source, T.Remembers d) (built : builder.run T = .ok d') :
    T.Remembers d' := by
  cases builder with
  | new target area loading storing => exact remembers_new built
  | withDepthAttachment d target loads storing =>
    exact remembers_withDepthAttachment (h d rfl) built
  | withColorAttachment d target loading storing =>
    exact remembers_withColorAttachment (h d rfl) built
  | withReadOnlyDepth d => exact remembers_withReadOnlyDepth (h d rfl) built

end Remembering

end Sgfx
