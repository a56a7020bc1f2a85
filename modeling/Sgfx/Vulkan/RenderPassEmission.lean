import Sgfx.Vulkan.RenderPasses

/-!
# What `emit` records

`emit` goes through the attachments of a subpass, records a barrier for each one whose access
changes, and begins a pass with them.  The marks it leaves depend on the attachments and their
accesses only, so they are those of a list of touches.

## Main Definitions

* `OpenPass` — a pass that has begun
* `Subpass.touches`, `ActiveRenderPass.touchAll`
* `ActiveRenderPass.Touched` — what a list of touches leaves
* `ActiveRenderPass.Emitted` — what `emit` records

## Main Results

* `touchAll_ok`
* `emit_ok`
-/

namespace Sgfx.Vulkan

theorem orPanic_eq_ok {α : Type} {value : Option α} {a : α} :
    orPanic value = .ok a ↔ value = some a := okOr_eq_ok

/-- A pass that has begun. -/
structure OpenPass where
  area : PixelRect
  colors : List OwnedColorAttachment
  depth : Option OwnedDepthAttachment
  readOnlyDepth : Bool

/-- The pass that a command begins. -/
def openPass : OwnedCommand → Option OpenPass
  | .beginRenderPass desc =>
    some ⟨desc.area, [⟨desc.target, desc.load, desc.store⟩], desc.depth, false⟩
  | .beginRenderPassWithAttachments desc colors readOnlyDepth =>
    some ⟨desc.area, ⟨desc.target, desc.load, desc.store⟩ :: colors, desc.depth, readOnlyDepth⟩
  | _ => none

section Emission

variable {W : Type}

/-- The attachments of the subpass in the order of `emit`, with the accesses that it asks for. -/
def Subpass.touches (subpass : Subpass) : List (Nat × TextureAccess) :=
  subpass.colors.map (·, .renderAttachment) ++
    (subpass.depth.toList.map (·, if subpass.readOnlyDepth then .sampled else .renderAttachment) ++
      (subpass.inputs.filterMap id).map (·, .sampled))

theorem Subpass.mem_touches {subpass : Subpass} {i : Nat} :
    i ∈ subpass.touches.map Prod.fst ↔ subpass.uses i = true := by
  simp [touches, uses_iff, Function.comp_def]

/-- The command is a barrier. -/
def PassOp.IsBarrier : PassOp W → Prop
  | .command (.resourceBarrier _) => True
  | _ => False

namespace ActiveRenderPass

/-- An attachment is used with an access. -/
def touch (active : ActiveRenderPass) (ops : List (PassOp W)) (index : Nat)
    (after : TextureAccess) : Except Stop (ActiveRenderPass × List (PassOp W)) :=
  (fun result => (result.1.use index, result.2)) <$> active.access index after ops

/-- Attachments are used in order. -/
def touchAll (active : ActiveRenderPass) (ops : List (PassOp W)) :
    List (Nat × TextureAccess) → Except Stop (ActiveRenderPass × List (PassOp W))
  | [] => .ok (active, ops)
  | (index, after) :: rest => do
    let (active, ops) ← active.touch ops index after
    touchAll active ops rest

/-- An access of the attachment is known. -/
def Seen (active : ActiveRenderPass) (i : Nat) : Prop :=
  ∃ access, active.accesses[i]? = some (some access)

/-- What a list of touches leaves: marks, and nothing else. -/
structure Touched (active active' : ActiveRenderPass) (indices : List Nat) : Prop where
  rest : active' = { active with used := active'.used, accesses := active'.accesses }
  used : ∀ i, active'.used[i]? =
    if i ∈ indices then active.used[i]?.map fun _ => true else active.used[i]?
  length_eq : active'.accesses.length = active.accesses.length
  seen : ∀ i, i ∈ indices ∨ active.Seen i → active'.Seen i

theorem Touched.refl (active : ActiveRenderPass) : active.Touched active [] :=
  ⟨rfl, fun _ => rfl, rfl, fun _ h => h.resolve_left (List.not_mem_nil)⟩

theorem Touched.trans {active mid active' : ActiveRenderPass} {front back : List Nat}
    (first : active.Touched mid front) (second : mid.Touched active' back) :
    active.Touched active' (front ++ back) := by
  refine ⟨?_, fun i => ?_, second.length_eq.trans first.length_eq, fun i h => second.seen i ?_⟩
  · rw [second.rest, first.rest]
  · rw [second.used, first.used]
    by_cases inFront : i ∈ front
    · rw [if_pos inFront, if_pos (List.mem_append_left _ inFront), Option.map_map]
      exact ite_id _
    · by_cases inBack : i ∈ back
      · rw [if_neg inFront, if_pos inBack, if_pos (List.mem_append_right _ inBack)]
      · rw [if_neg inFront, if_neg inBack, if_neg]
        exact fun inside => (List.mem_append.mp inside).elim inFront inBack
  · rw [List.mem_append] at h
    rcases h with (inFront | inBack) | seen
    · exact .inr (first.seen i (.inl inFront))
    · exact .inl inBack
    · exact .inr (first.seen i (.inr seen))

theorem accessBarrier_ok {active : ActiveRenderPass} {barriers : List (PassOp W)} {index : Nat}
    {after : TextureAccess} (h : active.accessBarrier index after = .ok barriers) :
    ∀ op ∈ barriers, op.IsBarrier := by
  unfold accessBarrier at h
  obtain ⟨before, -, h⟩ := except_bind_eq_ok.mp h
  cases before with
  | none =>
    obtain rfl := Except.ok.inj h
    exact fun _ here => (by cases here)
  | some access =>
    obtain ⟨texture, -, h⟩ := except_bind_eq_ok.mp h
    obtain rfl := Except.ok.inj h
    unfold textureBarrier
    split
    · intro op here
      rw [List.mem_singleton.mp here]
      trivial
    · exact fun _ here => (by cases here)

theorem getElem?_set_true (marks : List Bool) (index i : Nat) :
    (marks.set index true)[i]? =
      if i ∈ [index] then marks[i]?.map fun _ => true else marks[i]? := by
  simp only [List.getElem?_set, List.mem_singleton]
  by_cases same : index = i
  · subst same
    by_cases inside : index < marks.length
    · rw [if_pos rfl, if_pos inside, if_pos rfl, List.getElem?_eq_getElem inside]
      rfl
    · rw [if_pos rfl, if_neg inside, if_pos rfl, List.getElem?_eq_none (Nat.le_of_not_lt inside)]
      rfl
  · rw [if_neg same, if_neg (Ne.symm same)]

/-- A touch marks its attachment, after a barrier. -/
theorem touch_eq_ok {active active' : ActiveRenderPass} {ops ops' : List (PassOp W)} {index : Nat}
    {after : TextureAccess} (h : active.touch ops index after = .ok (active', ops')) :
    ∃ barriers, active.accessBarrier index after = .ok barriers ∧ ops' = ops ++ barriers ∧
      active' = { active with
        accesses := active.accesses.set index (some after)
        used := active.used.set index true } := by
  unfold touch access at h
  rw [← bind_pure_comp] at h
  simp only [except_bind_eq_ok] at h
  obtain ⟨_, ⟨barriers, recorded, same⟩, result⟩ := h
  cases same
  cases result
  exact ⟨barriers, recorded, rfl, rfl⟩

theorem accessBefore_ok {active : ActiveRenderPass} {i : Nat} {before : Option TextureAccess}
    (h : active.accessBefore i = .ok before) : i < active.accesses.length := by
  obtain ⟨known, found, -⟩ := except_bind_eq_ok.mp h
  exact (List.getElem?_eq_some_iff.mp (orPanic_eq_ok.mp found)).1

theorem accessBarrier_inside {active : ActiveRenderPass} {barriers : List (PassOp W)} {index : Nat}
    {after : TextureAccess} (h : active.accessBarrier index after = .ok barriers) :
    index < active.accesses.length := by
  obtain ⟨before, accessed, -⟩ := except_bind_eq_ok.mp h
  exact accessBefore_ok accessed

/-- A touch records at most a barrier. -/
theorem touch_ok {active active' : ActiveRenderPass} {ops ops' : List (PassOp W)} {index : Nat}
    {after : TextureAccess} (h : active.touch ops index after = .ok (active', ops')) :
    active.Touched active' [index] ∧ ∃ barriers, ops' = ops ++ barriers ∧
      ∀ op ∈ barriers, op.IsBarrier := by
  obtain ⟨barriers, recorded, rfl, rfl⟩ := touch_eq_ok h
  refine ⟨⟨rfl, fun i => getElem?_set_true _ _ _, List.length_set, fun i h => ?_⟩, barriers, rfl,
    accessBarrier_ok recorded⟩
  unfold Seen
  by_cases same : index = i
  · exact ⟨after, same ▸ List.getElem?_set_self (accessBarrier_inside recorded)⟩
  · simp only [List.getElem?_set_ne same]
    exact h.resolve_left fun here => same (List.mem_singleton.mp here).symm

theorem touchAll_ok {active active' : ActiveRenderPass} {ops ops' : List (PassOp W)}
    {touches : List (Nat × TextureAccess)}
    (h : active.touchAll ops touches = .ok (active', ops')) :
    active.Touched active' (touches.map Prod.fst) ∧ ∃ barriers, ops' = ops ++ barriers ∧
      ∀ op ∈ barriers, op.IsBarrier := by
  induction touches generalizing active ops with
  | nil =>
    obtain ⟨rfl, rfl⟩ := Prod.mk.inj (Except.ok.inj h)
    exact ⟨.refl _, [], (List.append_nil _).symm, fun _ here => (by cases here)⟩
  | cons touch rest ih =>
    rw [touchAll, except_bind_eq_ok] at h
    obtain ⟨⟨mid, midOps⟩, touched, h⟩ := h
    obtain ⟨first, barriers, rfl, barred⟩ := touch_ok touched
    obtain ⟨later, others, rfl, barredOthers⟩ := ih h
    refine ⟨first.trans later, barriers ++ others, List.append_assoc .., fun op here => ?_⟩
    exact (List.mem_append.mp here).elim (barred op) (barredOthers op)

theorem touchAll_append {active mid : ActiveRenderPass} {ops midOps : List (PassOp W)}
    {front back : List (Nat × TextureAccess)}
    (first : active.touchAll ops front = .ok (mid, midOps)) :
    active.touchAll ops (front ++ back) = mid.touchAll midOps back := by
  induction front generalizing active ops with
  | nil =>
    cases first
    rfl
  | cons touch rest ih =>
    rw [touchAll, except_bind_eq_ok] at first
    obtain ⟨⟨next, nextOps⟩, touched, later⟩ := first
    rw [List.cons_append, touchAll, touched]
    exact ih later

/-! ### What an attachment is begun with -/

section Touched

variable {active active' : ActiveRenderPass} {indices : List Nat} {i : Nat}

theorem Touched.texture (touched : active.Touched active' indices) :
    active'.texture i = active.texture i := by
  rw [touched.rest]
  rfl

theorem Touched.store (touched : active.Touched active' indices) :
    active'.store i = active.store i := by
  rw [touched.rest]
  rfl

theorem Touched.load (touched : active.Touched active' indices) (fresh : i ∉ indices) :
    active'.load i = active.load i := by
  have used := touched.used i
  rw [if_neg fresh] at used
  rw [touched.rest]
  unfold ActiveRenderPass.load
  rw [show (active'.used)[i]? = _ from used]

theorem Touched.colorLoad (touched : active.Touched active' indices) (fresh : i ∉ indices) :
    active'.colorLoad i = active.colorLoad i := by
  unfold ActiveRenderPass.colorLoad
  rw [touched.load fresh, touched.rest]

theorem Touched.depthLoad (touched : active.Touched active' indices) (fresh : i ∉ indices) :
    active'.depthLoad i = active.depthLoad i := by
  unfold ActiveRenderPass.depthLoad
  rw [touched.load fresh, touched.rest]

end Touched

/-- The colour that an attachment becomes. -/
structure ColorOf (active : ActiveRenderPass) (index : Nat) (color : OwnedColorAttachment) :
    Prop where
  load : active.colorLoad index = .ok color.load
  target : active.texture index = .ok color.target
  store : active.store index = .ok color.store

/-- The depth attachment that an attachment becomes. -/
structure DepthOf (active : ActiveRenderPass) (index : Nat) (depth : OwnedDepthAttachment) :
    Prop where
  load : active.depthLoad index = .ok depth.load
  target : active.texture index = .ok depth.target
  store : active.store index = .ok depth.store

theorem ColorOf.of_touched {active active' : ActiveRenderPass} {indices : List Nat} {i : Nat}
    {color : OwnedColorAttachment} (h : active'.ColorOf i color)
    (touched : active.Touched active' indices) (fresh : i ∉ indices) : active.ColorOf i color :=
  ⟨touched.colorLoad fresh ▸ h.load, touched.texture ▸ h.target, touched.store ▸ h.store⟩

theorem emitColors_ok {base active active' : ActiveRenderPass} {ops ops' : List (PassOp W)}
    {done indices : List Nat} {colors : List OwnedColorAttachment} (nodup : indices.Nodup)
    (touched : base.Touched active done) (fresh : ∀ i ∈ indices, i ∉ done)
    (h : active.emitColors ops indices = .ok (colors, active', ops')) :
    active.touchAll ops (indices.map (·, .renderAttachment)) = .ok (active', ops') ∧
      List.Forall₂ base.ColorOf indices colors := by
  induction indices generalizing active ops colors done with
  | nil =>
    obtain ⟨rfl, same⟩ := Prod.mk.inj (Except.ok.inj h)
    exact ⟨congrArg Except.ok same, .nil⟩
  | cons index rest ih =>
    obtain ⟨other, nodup⟩ := List.nodup_cons.mp nodup
    rw [List.forall_mem_cons] at fresh
    simp only [emitColors, emitColor, except_bind_eq_ok] at h
    obtain ⟨_, ⟨loadOp, loaded, target, named, storeOp, stored, ⟨mid, midOps⟩, accessed, same⟩,
      ⟨others, last, lastOps⟩, emitted, result⟩ := h
    cases same
    cases result
    have first : active.touch ops index .renderAttachment = .ok (mid.use index, midOps) := by
      rw [touch, accessed]
      rfl
    obtain ⟨later, attached⟩ := ih nodup (touched.trans (touch_ok first).1) (fun i inside here => by
      rcases List.mem_append.mp here with here | here
      · exact fresh.2 i inside here
      · exact other (List.mem_singleton.mp here ▸ inside)) emitted
    refine ⟨?_, .cons (ColorOf.of_touched ⟨loaded, named, stored⟩ touched fresh.1) attached⟩
    rw [List.map_cons, touchAll, first]
    exact later

theorem emitDepth_ok {active active' : ActiveRenderPass} {ops ops' : List (PassOp W)}
    {index : Option Nat} {readOnly : Bool} {depth : Option OwnedDepthAttachment}
    (h : active.emitDepth readOnly ops index = .ok (depth, active', ops')) :
    active.touchAll ops (index.toList.map (·, if readOnly then .sampled else .renderAttachment)) =
      .ok (active', ops') ∧ Option.Rel active.DepthOf index depth := by
  cases index with
  | none =>
    cases h
    exact ⟨rfl, .none⟩
  | some index =>
    simp only [emitDepth, except_bind_eq_ok] at h
    obtain ⟨loadOp, loaded, ⟨mid, midOps⟩, accessed, target, named, storeOp, stored, same⟩ := h
    cases same
    have touched : active.touch ops index (if readOnly then .sampled else .renderAttachment) =
        .ok (mid.use index, midOps) := by
      rw [touch, accessed]
      rfl
    have marks := (touch_ok touched).1
    refine ⟨?_, .some ⟨loaded, marks.texture ▸ named, marks.store ▸ stored⟩⟩
    rw [Option.toList_some, List.map_singleton, touchAll, touched]
    rfl

theorem emitInputs_ok {active active' : ActiveRenderPass} {ops ops' : List (PassOp W)}
    {indices : List Nat} (h : active.emitInputs ops indices = .ok (active', ops')) :
    active.touchAll ops (indices.map (·, .sampled)) = .ok (active', ops') := by
  induction indices generalizing active ops with
  | nil => exact h
  | cons index rest ih =>
    rw [emitInputs, except_bind_eq_ok] at h
    obtain ⟨⟨mid, midOps⟩, accessed, later⟩ := h
    rw [List.map_cons, touchAll, touch, accessed]
    exact ih later

/-- What `emit` begins a pass with. -/
structure Begun (active : ActiveRenderPass) (subpass : Subpass) (pass : OpenPass) : Prop where
  area : pass.area = active.area
  readOnlyDepth : pass.readOnlyDepth = subpass.readOnlyDepth
  colors : List.Forall₂ active.ColorOf subpass.colors pass.colors ∨
    subpass.colors = [] ∧ ∃ target, active.discardedColor = some target ∧
      pass.colors = [⟨target, .dontCare, .dontCare⟩]
  depth : Option.Rel active.DepthOf subpass.depth pass.depth

theorem openPass_beginCommand (area : PixelRect) (first : OwnedColorAttachment)
    (rest : List OwnedColorAttachment) (depth : Option OwnedDepthAttachment)
    (readOnlyDepth : Bool) : openPass (beginCommand area first rest depth readOnlyDepth) =
      some ⟨area, first :: rest, depth, readOnlyDepth⟩ := by
  unfold beginCommand
  split
  case isTrue h =>
    obtain ⟨rfl, rfl⟩ := h
    rfl
  case isFalse => rfl

/-- `emit` touches the attachments of the subpass and begins a pass with them. -/
theorem emit_ok {active active' : ActiveRenderPass} {ops ops' : List (PassOp W)}
    {attachments : List AttachmentDescription} {subpass : Subpass}
    (current : active.pass.subpasses[active.subpass]? = some subpass)
    (fits : subpass.Fits attachments) (h : active.emit ops = .ok (active', ops')) :
    ∃ touchedOps command pass, active.touchAll ops subpass.touches = .ok (active', touchedOps) ∧
      ops' = touchedOps ++ [.command command] ∧ openPass command = some pass ∧
      active.Begun subpass pass := by
  simp only [emit, except_bind_eq_ok, orPanic_eq_ok, current, Option.some.injEq] at h
  obtain ⟨_, rfl, ⟨colors, mid, midOps⟩, coloured, ⟨depth, later, laterOps⟩, deep,
    ⟨last, lastOps⟩, input, h⟩ := h
  obtain ⟨touchedColors, attachedColors⟩ := emitColors_ok fits.nodup (.refl active)
    (fun _ _ here => (by cases here)) coloured
  obtain ⟨touchedDepth, attachedDepth⟩ := emitDepth_ok deep
  have touched : active.touchAll ops subpass.touches = .ok (last, lastOps) := by
    rw [Subpass.touches, touchAll_append touchedColors, touchAll_append touchedDepth]
    exact emitInputs_ok input
  have marks := (touchAll_ok touchedColors).1
  rw [List.map_map, Function.comp_def, List.map_id'' fun _ => rfl] at marks
  have depthOf : Option.Rel active.DepthOf subpass.depth depth := by
    generalize used : subpass.depth = index at attachedDepth
    cases attachedDepth with
    | none => exact .none
    | some attached =>
      have fresh := fits.depth_notMem used
      exact .some ⟨marks.depthLoad fresh ▸ attached.load, marks.texture ▸ attached.target,
        marks.store ▸ attached.store⟩
  have same := (touchAll_ok touched).1.rest
  have area : last.area = active.area := by
    rw [same]
  cases colors with
  | nil =>
    obtain ⟨target, discarded, h⟩ := except_bind_eq_ok.mp h
    cases h
    rw [okOr_eq_ok, same] at discarded
    refine ⟨lastOps, _, _, touched, rfl, openPass_beginCommand .., area, rfl, .inr ⟨?_, target,
      discarded, rfl⟩, depthOf⟩
    exact List.forall₂_nil_right_iff.mp attachedColors
  | cons first rest =>
    cases h
    exact ⟨lastOps, _, _, touched, rfl, openPass_beginCommand .., area, rfl, .inl attachedColors,
      depthOf⟩

end ActiveRenderPass

end Emission

end Sgfx.Vulkan
