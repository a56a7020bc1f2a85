import Sgfx.Library.Replays
import Sgfx.Library.Transducers
import Sgfx.Vulkan.RenderPassEmission

/-!
# Accesses of attachments

A barrier says which access of a texture it follows, and a pass, a copy or a read of an input
attachment each need an access of their own.  The commands of a render pass chain: whatever is known
of a texture is what the next command takes it for.

An access may be unknown, as it is of a texture whose layout permits several; the first command that
needs an access then settles it.

## Main Definitions

* `Accesses`, `PassOp.uses`, `Accesses.Step` — a command against what is known
* `ActiveRenderPass.Apart`, `ActiveRenderPass.Tracks`
* `PassRecording.Follows` — the invariant of a render pass in progress

## Main Results

* `Tracks.emit`
* `Follows.clearAttachments`, `Follows.nextSubpass`, `Follows.interrupt`, `Follows.draw`
* `finalCommands_all` — the end of a pass
-/

namespace Sgfx.Vulkan

/-- What is known of the access of each texture. -/
abbrev Accesses := TextureId → Option TextureAccess

section Steps

variable {W : Type}

/-- The accesses that a pass needs. -/
def OpenPass.uses (pass : OpenPass) : List (TextureId × TextureAccess) :=
  pass.colors.map (fun color => (color.target, .renderAttachment)) ++
    pass.depth.toList.map fun depth =>
      (depth.target, if pass.readOnlyDepth then .sampled else .renderAttachment)

/-- The accesses that a command needs. -/
def PassOp.uses : PassOp W → List (TextureId × TextureAccess)
  | .command (.resourceBarrier (.texture texture before _)) => [(texture, before)]
  | .command (.blitTextureRegion source _ _ destination _ _ _ _) =>
    [(source, .copySource), (destination, .copyDestination)]
  | .command c => (openPass c).elim [] OpenPass.uses
  | .work _ inputs => inputs.map (·, .sampled)
  | .action _ => []

/-- The accesses after a command. -/
def PassOp.leaves : PassOp W → List (TextureId × TextureAccess)
  | .command (.resourceBarrier (.texture texture _ after)) => [(texture, after)]
  | op => op.uses

/-- The access is the one, as far as it is known. -/
def Accesses.Admits (A : Accesses) (texture : TextureId) (access : TextureAccess) : Prop :=
  A texture = none ∨ A texture = some access

/-- Accesses that have become known. -/
def Accesses.learn (A : Accesses) (uses : List (TextureId × TextureAccess)) : Accesses :=
  fun texture => match uses.find? fun use => use.1 == texture with
    | some use => some use.2
    | none => A texture

/-- A command whose accesses are admitted. -/
structure Accesses.Step (op : PassOp W) (A B : Accesses) : Prop where
  admits : ∀ use ∈ op.uses, A.Admits use.1 use.2
  learnt : B = A.learn op.leaves

theorem Accesses.learn_of_notMem {A : Accesses} {uses : List (TextureId × TextureAccess)}
    {texture : TextureId} (fresh : ∀ use ∈ uses, use.1 ≠ texture) :
    A.learn uses texture = A texture := by
  unfold learn
  rw [List.find?_eq_none.mpr fun use here => by simpa using fresh use here]

/-- What is learnt of a texture is one of its uses. -/
theorem Accesses.learn_cases (A : Accesses) (uses : List (TextureId × TextureAccess))
    (texture : TextureId) :
    A.learn uses texture = A texture ∨
      ∃ access, (texture, access) ∈ uses ∧ A.learn uses texture = some access := by
  unfold learn
  cases found : uses.find? fun use => use.1 == texture with
  | none => exact .inl rfl
  | some use =>
    have same := List.find?_some found
    exact .inr ⟨use.2, (beq_iff_eq.mp same) ▸ List.mem_of_find?_eq_some found, rfl⟩

/-! ### Retained passes -/

theorem retained_uses {c c' : OwnedCommand} (h : retained c = some c') :
    (PassOp.command c' : PassOp W).uses = (PassOp.command c : PassOp W).uses ∧
      (PassOp.command c' : PassOp W).leaves = (PassOp.command c : PassOp W).leaves := by
  have depths : ∀ (readOnly : Bool) (depth : Option OwnedDepthAttachment),
      ((depth.map fun d => { d with store := StoreOp.store }).toList.map fun d =>
        (d.target, if readOnly then TextureAccess.sampled else .renderAttachment)) =
      depth.toList.map fun d =>
        (d.target, if readOnly then TextureAccess.sampled else .renderAttachment) := by
    intro readOnly depth
    cases depth <;> rfl
  cases c with
  | beginRenderPass desc =>
    cases h
    simp only [PassOp.uses, PassOp.leaves, openPass, Option.elim_some, OpenPass.uses, depths,
      List.map_cons, List.map_nil, and_self]
  | beginRenderPassWithAttachments desc colors readOnlyDepth =>
    cases h
    simp only [PassOp.uses, PassOp.leaves, openPass, Option.elim_some, OpenPass.uses, depths,
      List.map_cons, List.map_map, Function.comp_def, and_self]
  | _ => cases h

/-- A pass whose contents are retained needs the same accesses. -/
theorem replays_retainLast {ops ops' : List (PassOp W)} {A B : Accesses}
    (h : retainLast ops = some ops') (followed : Replays Accesses.Step ops A B) :
    Replays Accesses.Step ops' A B := by
  induction ops generalizing ops' A with
  | nil => cases h
  | cons op rest ih =>
    obtain ⟨C, first, later⟩ := replays_cons.mp followed
    unfold retainLast at h
    cases last : retainLast rest with
    | some rest' =>
      rw [last] at h
      cases h
      exact .cons first (ih last later)
    | none =>
      rw [last] at h
      cases op with
      | command c =>
        obtain ⟨c', changed, rfl⟩ := Option.map_eq_some_iff.mp h
        have same := retained_uses (W := W) changed
        exact .cons ⟨same.1 ▸ first.admits, same.2 ▸ first.learnt⟩ later
      | work => cases h
      | action => cases h

end Steps

/-! ## The attachments of a pass in progress -/

namespace ActiveRenderPass

/-- The textures of the attachments are different from each other, from the one that is discarded
and from those whose mip levels are rendered to. -/
structure Apart (active : ActiveRenderPass) : Prop where
  texture : ∀ i j t, active.texture i = .ok t → active.texture j = .ok t → i = j
  discarded : ∀ t, active.discardedColor = some t → ∀ i, active.texture i ≠ .ok t
  original : ∀ (i : Nat) t level, active.mipTargets[i]? = some (some (t, level)) →
    (∀ j, active.texture j ≠ .ok t) ∧ active.discardedColor ≠ some t
  originals : ∀ (i j : Nat) t level level', active.mipTargets[i]? = some (some (t, level)) →
    active.mipTargets[j]? = some (some (t, level')) → i = j

/-- The attachment is a mip level, which is rendered to a private texture. -/
def IsMip (active : ActiveRenderPass) (i : Nat) : Prop :=
  ∃ mip, active.mipTargets[i]? = some (some mip)

/-- The accesses that the pass goes by are the ones that are known.  A private texture is filled
before the pass knows of it. -/
structure Tracks (active : ActiveRenderPass) (A : Accesses) : Prop where
  known : ∀ i before t, active.accessBefore i = .ok before → active.texture i = .ok t →
    A t = none ∨ A t = before ∨ before = none ∧ active.IsMip i ∧ A t = some .renderAttachment
  discarded : ∀ t, active.discardedColor = some t → A.Admits t .renderAttachment
  original : ∀ (i : Nat) t level a access, active.mipTargets[i]? = some (some (t, level)) →
    active.pass.attachments[i]? = some a → attachmentAccess a.initialLayout = .ok access →
    A.Admits t access

/-- The attachment has the access. -/
def Holds (active : ActiveRenderPass) (touches : List (Nat × TextureAccess)) : Prop :=
  ∀ touch ∈ touches, active.accessBefore touch.1 = .ok (some touch.2)

section Tracks

variable {W : Type} {active active' : ActiveRenderPass} {A : Accesses}

/-- The uses are of attachments that have the access, or of the discarded colour. -/
def Covers (active : ActiveRenderPass) (uses : List (TextureId × TextureAccess)) : Prop :=
  ∀ use ∈ uses, (∃ i, active.texture i = .ok use.1 ∧ active.accessBefore i = .ok (some use.2)) ∨
    active.discardedColor = some use.1 ∧ use.2 = .renderAttachment

theorem Tracks.admits (tracks : active.Tracks A) {uses : List (TextureId × TextureAccess)}
    (covers : active.Covers uses) : ∀ use ∈ uses, A.Admits use.1 use.2 := by
  intro use here
  rcases covers use here with ⟨i, named, before⟩ | ⟨discarded, same⟩
  · exact (tracks.known i _ _ before named).imp_right
      fun h => h.resolve_right fun h => (by cases h.1)
  · exact same ▸ tracks.discarded _ discarded

/-- Uses of attachments with the accesses that they have teach nothing new. -/
theorem Tracks.learn (tracks : active.Tracks A) (apart : active.Apart)
    {uses : List (TextureId × TextureAccess)} (covers : active.Covers uses) :
    active.Tracks (A.learn uses) := by
  constructor
  · intro i before t accessed named
    rcases A.learn_cases uses t with same | ⟨access, here, learnt⟩
    · rw [same]
      exact tracks.known i before t accessed named
    · rw [learnt]
      rcases covers _ here with ⟨j, other, has⟩ | ⟨discarded, -⟩
      · obtain rfl := apart.texture i j t named other
        rw [accessed] at has
        exact .inr (.inl (Except.ok.inj has).symm)
      · exact absurd named (apart.discarded t discarded i)
  · intro t discarded
    rcases A.learn_cases uses t with same | ⟨access, here, learnt⟩
    · unfold Accesses.Admits
      rw [same]
      exact tracks.discarded t discarded
    · rcases covers _ here with ⟨j, other, -⟩ | ⟨-, same⟩
      · exact absurd other (apart.discarded t discarded j)
      · exact .inr (same ▸ learnt)
  · intro i t level a access mip found initial
    rcases A.learn_cases uses t with same | ⟨_, here, -⟩
    · unfold Accesses.Admits
      rw [same]
      exact tracks.original i t level a access mip found initial
    · rcases covers _ here with ⟨j, other, -⟩ | ⟨discarded, -⟩
      · exact absurd other ((apart.original i t level mip).1 j)
      · exact absurd discarded (apart.original i t level mip).2

/-- A command that needs what the attachments have. -/
theorem Tracks.step (tracks : active.Tracks A) (apart : active.Apart) {op : PassOp W}
    (covers : active.Covers op.uses) (same : op.leaves = op.uses) :
    ∃ B, Accesses.Step op A B ∧ active.Tracks B :=
  ⟨_, ⟨tracks.admits covers, rfl⟩, same ▸ tracks.learn apart covers⟩

/-! ### Touches -/

theorem accessBefore_touched {i : Nat} {after : TextureAccess} {used : List Bool}
    (inside : i < active.accesses.length) :
    ({ active with accesses := active.accesses.set i (some after), used } :
      ActiveRenderPass).accessBefore i = .ok (some after) := by
  unfold accessBefore
  simp only [List.getElem?_set_self inside]
  rfl

theorem accessBefore_other {i j : Nat} {after : TextureAccess} {used : List Bool} (other : i ≠ j) :
    ({ active with accesses := active.accesses.set i (some after), used } :
      ActiveRenderPass).accessBefore j = active.accessBefore j := by
  unfold accessBefore
  simp only [List.getElem?_set_ne other]

/-- The barrier of a touch follows what is known, and leaves the access that was asked for. -/
theorem Tracks.touch (tracks : active.Tracks A) (apart : active.Apart) {ops ops' : List (PassOp W)}
    {A₀ : Accesses} {i : Nat} {after : TextureAccess}
    (rendered : active.IsMip i → after = .renderAttachment)
    (followed : Replays Accesses.Step ops A₀ A)
    (h : active.touch ops i after = .ok (active', ops')) :
    ∃ B, Replays Accesses.Step ops' A₀ B ∧ active'.Tracks B ∧
      active'.accessBefore i = .ok (some after) ∧
      ∀ j, j ≠ i → active'.accessBefore j = active.accessBefore j := by
  obtain ⟨barriers, recorded, rfl, rfl⟩ := touch_eq_ok h
  obtain ⟨before, accessed, recorded⟩ := except_bind_eq_ok.mp recorded
  have inside := accessBefore_ok accessed
  -- After the barrier, whatever is known of the texture is the access that was asked for.
  suffices settled : ∃ B, Replays Accesses.Step (ops ++ barriers) A₀ B ∧
      (∀ t, active.texture i = .ok t → B.Admits t after) ∧
      ∀ t, active.texture i ≠ .ok t → B t = A t by
    obtain ⟨B, chained, settled, frame⟩ := settled
    refine ⟨B, chained, ⟨fun j before' t accessed' named => ?_, fun t discarded => ?_,
      fun j t level a access mip found initial => ?_⟩, accessBefore_touched inside,
      fun j other => accessBefore_other other.symm⟩
    · by_cases same : i = j
      · subst same
        rw [accessBefore_touched inside] at accessed'
        cases accessed'
        exact (settled t named).imp_right .inl
      · rw [accessBefore_other same] at accessed'
        rw [frame t fun here => same (apart.texture i j t here named)]
        exact tracks.known j before' t accessed' named
    · unfold Accesses.Admits
      rw [frame t (apart.discarded t discarded i)]
      exact tracks.discarded t discarded
    · unfold Accesses.Admits
      rw [frame t ((apart.original j t level mip).1 i)]
      exact tracks.original j t level a access mip found initial
  cases before with
  | none =>
    cases recorded
    refine ⟨A, by rwa [List.append_nil], fun t named => ?_, fun _ _ => rfl⟩
    rcases tracks.known i none t accessed named with unknown | unknown | ⟨-, mip, known⟩
    · exact .inl unknown
    · exact .inl unknown
    · exact .inr (rendered mip ▸ known)
  | some before =>
    obtain ⟨t, named, recorded⟩ := except_bind_eq_ok.mp recorded
    cases recorded
    have known : A.Admits t before := (tracks.known i (some before) t accessed named).imp_right
      fun h => h.resolve_right fun h => (by cases h.1)
    unfold textureBarrier
    split
    · refine ⟨A.learn [(t, after)], replays_snoc.mpr ⟨A, followed, ⟨fun use here => ?_, rfl⟩⟩,
        fun u other => ?_, fun u other => ?_⟩
      · rw [List.mem_singleton.mp here]
        exact known
      · rw [named] at other
        cases other
        exact .inr (by simp [Accesses.learn])
      · refine Accesses.learn_of_notMem fun use here => ?_
        rw [List.mem_singleton.mp here]
        rintro rfl
        exact other named
    · rename_i unchanged
      rw [List.append_nil]
      refine ⟨A, followed, fun u other => ?_, fun _ _ => rfl⟩
      rw [named] at other
      cases other
      exact not_not.mp unchanged ▸ known

theorem Apart.of_touched (apart : active.Apart) {indices : List Nat}
    (touched : active.Touched active' indices) : active'.Apart := by
  rw [touched.rest]
  exact ⟨apart.texture, apart.discarded, apart.original, apart.originals⟩

theorem Touched.isMip {indices : List Nat} {i : Nat} (touched : active.Touched active' indices) :
    active'.IsMip i ↔ active.IsMip i := by
  rw [touched.rest]
  rfl

/-- Touches in a row, each attachment with one access. -/
theorem Tracks.touchAll (tracks : active.Tracks A) (apart : active.Apart)
    {ops ops' : List (PassOp W)} {A₀ : Accesses} {touches : List (Nat × TextureAccess)}
    (once : ∀ i a b, (i, a) ∈ touches → (i, b) ∈ touches → a = b)
    (rendered : ∀ i a, (i, a) ∈ touches → active.IsMip i → a = .renderAttachment)
    (followed : Replays Accesses.Step ops A₀ A)
    (h : active.touchAll ops touches = .ok (active', ops')) :
    ∃ B, Replays Accesses.Step ops' A₀ B ∧ active'.Tracks B ∧ active'.Holds touches ∧
      ∀ j, j ∉ touches.map Prod.fst → active'.accessBefore j = active.accessBefore j := by
  induction touches generalizing active ops A with
  | nil =>
    cases h
    exact ⟨A, followed, tracks, fun _ here => (by cases here), fun _ _ => rfl⟩
  | cons touch rest ih =>
    obtain ⟨i, after⟩ := touch
    rw [ActiveRenderPass.touchAll, except_bind_eq_ok] at h
    obtain ⟨⟨mid, midOps⟩, touched, h⟩ := h
    obtain ⟨B, chained, tracksMid, has, others⟩ := tracks.touch apart
      (rendered i after List.mem_cons_self) followed touched
    have marks := (touch_ok touched).1
    obtain ⟨C, later, tracks', holds, frame⟩ := ih tracksMid (apart.of_touched marks)
      (fun j a b first second => once j a b (List.mem_cons_of_mem _ first)
        (List.mem_cons_of_mem _ second))
      (fun j a here mip => rendered j a (List.mem_cons_of_mem _ here) (marks.isMip.mp mip))
      chained h
    refine ⟨C, later, tracks', List.forall_mem_cons.mpr ⟨?_, holds⟩, fun j other => ?_⟩
    · by_cases again : i ∈ rest.map Prod.fst
      · obtain ⟨⟨_, a⟩, here, rfl⟩ := List.mem_map.mp again
        rw [once _ after a List.mem_cons_self (List.mem_cons_of_mem _ here)]
        exact holds _ here
      · exact (frame i again).trans has
    · rw [List.map_cons, List.mem_cons, not_or] at other
      exact (frame j other.2).trans (others j other.1)

/-- Commands that need what the attachments have, in a row. -/
theorem Tracks.replays (tracks : active.Tracks A) (apart : active.Apart) {ops : List (PassOp W)}
    {A₀ : Accesses} (followed : Replays Accesses.Step ops A₀ A) (more : List (PassOp W))
    (covers : ∀ op ∈ more, active.Covers op.uses ∧ op.leaves = op.uses) :
    ∃ B, Replays Accesses.Step (ops ++ more) A₀ B ∧ active.Tracks B := by
  obtain ⟨B, chained, tracks⟩ := Replays.exists (fun op here _ tracks =>
    Tracks.step tracks apart (covers op here).1 (covers op here).2) tracks
  exact ⟨B, replays_append.mpr ⟨A, followed, chained⟩, tracks⟩

theorem Holds.of_mem {touches : List (Nat × TextureAccess)} (holds : active.Holds touches) {i : Nat}
    {access : TextureAccess} (here : (i, access) ∈ touches) :
    active.accessBefore i = .ok (some access) := holds _ here

end Tracks

end ActiveRenderPass

section Subpasses

variable {W : Type} {subpass : Subpass} {attachments : List AttachmentDescription}

theorem Subpass.color_mem_touches {i : Nat} (h : i ∈ subpass.colors) :
    (i, TextureAccess.renderAttachment) ∈ subpass.touches :=
  List.mem_append_left _ (List.mem_map_of_mem h)

theorem Subpass.depth_mem_touches {i : Nat} (h : subpass.depth = some i) :
    (i, if subpass.readOnlyDepth then TextureAccess.sampled else .renderAttachment) ∈
      subpass.touches :=
  List.mem_append_right _ (List.mem_append_left _ (List.mem_map_of_mem (Option.mem_toList.mpr h)))

theorem Subpass.input_mem_touches {i : Nat} (h : some i ∈ subpass.inputs) :
    (i, TextureAccess.sampled) ∈ subpass.touches :=
  List.mem_append_right _ (List.mem_append_right _
    (List.mem_map_of_mem (List.mem_filterMap.mpr ⟨_, h, rfl⟩)))

theorem Subpass.touches_cases {i : Nat} {access : TextureAccess}
    (h : (i, access) ∈ subpass.touches) :
    i ∈ subpass.colors ∧ access = .renderAttachment ∨
      subpass.depth = some i ∧
        access = (if subpass.readOnlyDepth then .sampled else .renderAttachment) ∨
      some i ∈ subpass.inputs ∧ access = .sampled := by
  rcases List.mem_append.mp h with h | h
  · obtain ⟨j, inside, same⟩ := List.mem_map.mp h
    cases same
    exact .inl ⟨inside, rfl⟩
  rcases List.mem_append.mp h with h | h
  · obtain ⟨j, inside, same⟩ := List.mem_map.mp h
    cases same
    exact .inr (.inl ⟨Option.mem_toList.mp inside, rfl⟩)
  · obtain ⟨j, inside, same⟩ := List.mem_map.mp h
    cases same
    obtain ⟨_, inside, rfl⟩ := List.mem_filterMap.mp inside
    exact .inr (.inr ⟨inside, rfl⟩)

/-- A subpass asks for one access of an attachment. -/
theorem Subpass.Fits.once (fits : subpass.Fits attachments) (i : Nat) (a b : TextureAccess)
    (first : (i, a) ∈ subpass.touches) (second : (i, b) ∈ subpass.touches) : a = b := by
  rcases touches_cases first with ⟨one, rfl⟩ | ⟨one, rfl⟩ | ⟨one, rfl⟩ <;>
    rcases touches_cases second with ⟨two, rfl⟩ | ⟨two, rfl⟩ | ⟨two, rfl⟩
  · rfl
  · exact absurd one (fits.depth_notMem two)
  · exact absurd one (fits.inputs_notMem i two)
  · exact absurd two (fits.depth_notMem one)
  · rfl
  · rw [fits.readOnly i two one, if_pos rfl]
  · exact absurd two (fits.inputs_notMem i one)
  · rw [fits.readOnly i one two, if_pos rfl]
  · rfl

theorem uses_of_openPass {c : OwnedCommand} {pass : OpenPass} (h : openPass c = some pass) :
    (PassOp.command c : PassOp W).uses = pass.uses ∧
      (PassOp.command c : PassOp W).leaves = (PassOp.command c : PassOp W).uses := by
  cases c with
  | beginRenderPass | beginRenderPassWithAttachments =>
    cases h
    exact ⟨rfl, rfl⟩
  | _ => cases h

/-- `emit` goes on from what is known, and leaves the attachments of the subpass with the accesses
that it asks for. -/
theorem ActiveRenderPass.Tracks.emit {active active' : ActiveRenderPass} {A A₀ : Accesses}
    {ops ops' : List (PassOp W)} (tracks : active.Tracks A) (apart : active.Apart)
    (followed : Replays Accesses.Step ops A₀ A)
    (current : active.pass.subpasses[active.subpass]? = some subpass)
    (fits : subpass.Fits attachments)
    (rendered : ∀ i, active.IsMip i → i ∈ subpass.colors)
    (h : active.emit ops = .ok (active', ops')) :
    ∃ B, Replays Accesses.Step ops' A₀ B ∧ active'.Tracks B ∧ active'.Holds subpass.touches ∧
      active.Touched active' (subpass.touches.map Prod.fst) := by
  obtain ⟨touchedOps, command, pass, touched, rfl, opened, begun⟩ := emit_ok current fits h
  have marks := (touchAll_ok touched).1
  obtain ⟨B, chained, tracks', holds, -⟩ := tracks.touchAll apart fits.once
    (fun i a here mip => fits.once i a _ here (Subpass.color_mem_touches (rendered i mip)))
    followed touched
  have same := uses_of_openPass (W := W) opened
  -- What the pass needs is what the touches have left.
  have covers : active'.Covers (PassOp.command command : PassOp W).uses := by
    rw [same.1]
    intro use here
    rcases List.mem_append.mp here with here | here
    · obtain ⟨color, inside, rfl⟩ := List.mem_map.mp here
      rcases begun.colors with attached | ⟨-, target, discarded, colors⟩
      · obtain ⟨i, inColors, colorOf⟩ := forall₂_mem_right attached inside
        exact .inl ⟨i, marks.texture.trans colorOf.target,
          holds.of_mem (Subpass.color_mem_touches inColors)⟩
      · rw [colors, List.mem_singleton] at inside
        subst inside
        refine .inr ⟨?_, rfl⟩
        rw [marks.rest]
        exact discarded
    · obtain ⟨depth, inside, rfl⟩ := List.mem_map.mp here
      have attached := begun.depth
      rw [Option.mem_toList.mp inside] at attached
      generalize used : subpass.depth = index at attached
      cases attached with
      | some depthOf =>
        rw [begun.readOnlyDepth]
        exact .inl ⟨_, marks.texture.trans depthOf.target,
          holds.of_mem (Subpass.depth_mem_touches used)⟩
  obtain ⟨C, step, tracks''⟩ := tracks'.step (apart.of_touched marks) covers same.2
  exact ⟨C, replays_snoc.mpr ⟨B, chained, step⟩, tracks'', holds, marks⟩

end Subpasses

/-! ## A pass in progress -/

/-- What does not change while a pass is in progress: its attachments are those of its views, and a
mip level is a colour of the only subpass. -/
structure ActiveRenderPass.Placed (resources : PassResources) (active begun : ActiveRenderPass) :
    Prop where
  pass_eq : active.pass = begun.pass
  images_eq : active.images = begun.images
  mips_eq : active.mipTargets = begun.mipTargets
  fits : ∀ s ∈ active.pass.subpasses, s.Fits active.pass.attachments
  apart : active.Apart
  mips : ∀ (i : Nat) mip, active.mipTargets[i]? = some (some mip) →
    ∃ s, active.pass.subpasses = [s] ∧ i ∈ s.colors
  bound : ∀ (i : Nat) handle view image, active.views[i]? = some handle →
    resources.views handle = some view → resources.images view.image = some image →
    (∀ mip, active.mipTargets[i]? ≠ some (some mip)) → active.texture i = .ok image.id

section Follows

variable {W : Type} {resources : PassResources} {A₀ A : Accesses} {recording : PassRecording W}
  {begun active active' : ActiveRenderPass} {subpass : Subpass}

theorem ActiveRenderPass.Placed.of_touched (placed : active.Placed resources begun)
    {indices : List Nat} (touched : active.Touched active' indices) :
    active'.Placed resources begun := by
  have apart := placed.apart.of_touched touched
  rw [touched.rest] at apart ⊢
  exact ⟨placed.pass_eq, placed.images_eq, placed.mips_eq, placed.fits, apart, placed.mips,
    placed.bound⟩

/-- An access is known of every attachment that one of the first subpasses uses. -/
def ActiveRenderPass.Visited (active : ActiveRenderPass) (count : Nat) : Prop :=
  ∀ s ∈ active.pass.subpasses.take count, ∀ i, s.uses i = true → active.Seen i

/-- The commands so far follow each other, and the current subpass has its accesses. -/
structure PassRecording.Follows (resources : PassResources) (begun : ActiveRenderPass)
    (A₀ : Accesses) (recording : PassRecording W) (active : ActiveRenderPass) (subpass : Subpass)
    (A : Accesses) : Prop where
  active_eq : recording.activeRenderPass = some active
  current : active.pass.subpasses[active.subpass]? = some subpass
  followed : Replays Accesses.Step recording.ops A₀ A
  tracks : active.Tracks A
  holds : active.Holds subpass.touches
  visited : active.Visited (active.subpass + 1)
  placed : active.Placed resources begun

theorem ActiveRenderPass.Visited.earlier {count : Nat} (visited : active.Visited (count + 1)) :
    active.Visited count :=
  fun s inside => visited s (List.take_subset_take_left _ (Nat.le_succ count) inside)

theorem ActiveRenderPass.Placed.current (placed : active.Placed resources begun)
    (current : active.pass.subpasses[active.subpass]? = some subpass) :
    subpass.Fits active.pass.attachments := placed.fits _ (List.mem_of_getElem? current)

/-- A recording goes on with what `emit` records. -/
theorem PassRecording.Follows.emit (recording : PassRecording W) {ops ops' : List (PassOp W)}
    (tracks : active.Tracks A) (visited : active.Visited active.subpass)
    (placed : active.Placed resources begun) (followed : Replays Accesses.Step ops A₀ A)
    (current : active.pass.subpasses[active.subpass]? = some subpass)
    (h : active.emit ops = .ok (active', ops')) :
    ∃ B, PassRecording.Follows resources begun A₀
      { recording with ops := ops', activeRenderPass := some active' } active' subpass B := by
  obtain ⟨B, chained, tracks', holds, marks⟩ :=
    tracks.emit placed.apart followed current (placed.current current) (fun i mip => by
      obtain ⟨s, only, coloured⟩ := placed.mips i _ mip.choose_spec
      rw [only] at current
      exact List.mem_singleton.mp (List.mem_of_getElem? current) ▸ coloured) h
  refine ⟨B, rfl, ?_, chained, tracks', holds, fun s inside i used => marks.seen i ?_,
    placed.of_touched marks⟩
  · rw [marks.rest]
    exact current
  · rw [marks.rest, List.take_add_one, current, Option.toList_some, List.mem_append] at inside
    rcases inside with earlier | this
    · exact .inr (visited s earlier i used)
    · rw [List.mem_singleton.mp this] at used
      exact .inl (Subpass.mem_touches.mpr used)

/-- The command ends a pass or stands for an action, and needs no access. -/
theorem covers_nil {op : PassOp W} (none : op.uses = []) : active.Covers op.uses := by
  intro use here
  rw [none] at here
  cases here

theorem retainCurrentPass_ok {ops ops' : List (PassOp W)} (h : retainCurrentPass ops = .ok ops')
    (followed : Replays Accesses.Step ops A₀ A) : Replays Accesses.Step ops' A₀ A :=
  replays_retainLast (okOr_eq_ok.mp h) followed

/-- The passes that clear attachments need the attachments of the current subpass. -/
theorem covers_clearPass {target : TextureId} {color : Color} {area : PixelRect} {i : Nat}
    (named : active.texture i = .ok target)
    (has : active.accessBefore i = .ok (some .renderAttachment)) :
    ∀ op ∈ (clearPass target color area : List (PassOp W)),
      active.Covers op.uses ∧ op.leaves = op.uses := by
  intro op here
  rcases List.mem_cons.mp here with rfl | here
  · refine ⟨fun use inside => ?_, rfl⟩
    rw [List.mem_singleton.mp inside]
    exact .inl ⟨i, named, has⟩
  · rw [List.mem_singleton.mp here]
    exact ⟨covers_nil rfl, rfl⟩

theorem PassRecording.Follows.clearAttachments
    (follows : recording.Follows resources begun A₀ active subpass A)
    {attachments : List ClearAttachment} {rects : List ClearRect} {recording' : PassRecording W}
    (h : Vulkan.clearAttachments recording attachments rects = .ok recording') :
    ∃ active' subpass' B, recording'.Follows resources begun A₀ active' subpass' B := by
  simp only [Vulkan.clearAttachments, except_bind_eq_ok, okOr_eq_ok, follows.active_eq,
    Option.some.injEq] at h
  obtain ⟨_, rfl, h⟩ := h
  split at h
  · cases h
    exact ⟨active, subpass, A, follows⟩
  simp only [except_bind_eq_ok, orPanic_eq_ok, follows.current, Option.some.injEq] at h
  obtain ⟨areas, -, _, rfl, clears, cleared, -, -, ops, retained, ⟨last, lastOps⟩, emitted, ops',
    again, same⟩ := h
  cases same
  have apart := follows.placed.apart
  -- The clears are of colours of the current subpass, which are attachments to render to.
  obtain ⟨B, chained, tracks⟩ := follows.tracks.replays apart
    (retainCurrentPass_ok retained follows.followed)
    ([.command .endRenderPass] ++
      clears.flatMap fun clear => areas.flatMap (clearPass clear.1 clear.2)) (fun op here => by
      rcases List.mem_append.mp here with here | here
      · rw [List.mem_singleton.mp here]
        exact ⟨covers_nil rfl, rfl⟩
      · obtain ⟨⟨target, color⟩, inside, here⟩ := List.mem_flatMap.mp here
        obtain ⟨area, -, here⟩ := List.mem_flatMap.mp here
        obtain ⟨attachment, -, found⟩ := mapM_ok_mem cleared _ inside
        simp only [clearTarget, except_bind_eq_ok, okOr_eq_ok] at found
        obtain ⟨-, -, i, coloured, _, -, _, named, same⟩ := found
        cases same
        exact covers_clearPass named (follows.holds.of_mem
          (Subpass.color_mem_touches (List.mem_of_getElem? coloured))) op here)
  rw [← List.append_assoc] at chained
  obtain ⟨C, follows'⟩ := PassRecording.Follows.emit recording tracks follows.visited.earlier
    follows.placed chained follows.current emitted
  exact ⟨last, subpass, C, rfl, follows'.current, retainCurrentPass_ok again follows'.followed,
    follows'.tracks, follows'.holds, follows'.visited, follows'.placed⟩

theorem PassRecording.Follows.nextSubpass
    (follows : recording.Follows resources begun A₀ active subpass A)
    {recording' : PassRecording W} (h : Vulkan.nextSubpass recording = .ok recording') :
    ∃ active' subpass' B, recording'.Follows resources begun A₀ active' subpass' B := by
  simp only [Vulkan.nextSubpass, except_bind_eq_ok, okOr_eq_ok, follows.active_eq,
    Option.some.injEq, failIf_eq_ok, not_le] at h
  obtain ⟨_, rfl, -, more, ⟨last, lastOps⟩, emitted, same⟩ := h
  cases same
  obtain ⟨B, chained, tracks⟩ := follows.tracks.replays follows.placed.apart follows.followed
    [.command .endRenderPass] (fun op here => by
      rw [List.mem_singleton.mp here]
      exact ⟨covers_nil rfl, rfl⟩)
  have placed : ({ active with subpass := active.subpass + 1 } : ActiveRenderPass).Placed
      resources begun :=
    ⟨follows.placed.pass_eq, follows.placed.images_eq, follows.placed.mips_eq, follows.placed.fits,
      ⟨follows.placed.apart.texture, follows.placed.apart.discarded,
      follows.placed.apart.original, follows.placed.apart.originals⟩, follows.placed.mips,
      follows.placed.bound⟩
  have tracks' : ({ active with subpass := active.subpass + 1 } : ActiveRenderPass).Tracks B :=
    ⟨tracks.known, tracks.discarded, tracks.original⟩
  obtain ⟨C, follows'⟩ := PassRecording.Follows.emit recording tracks' follows.visited placed
    chained (List.getElem?_eq_getElem more) emitted
  exact ⟨last, _, C, follows'⟩

theorem PassRecording.Follows.interrupt
    (follows : recording.Follows resources begun A₀ active subpass A) {action : W}
    {recording' : PassRecording W} (h : Vulkan.interrupt recording action = .ok recording') :
    ∃ active' subpass' B, recording'.Follows resources begun A₀ active' subpass' B := by
  simp only [Vulkan.interrupt, suspend, resume, except_bind_eq_ok, okOr_eq_ok, follows.active_eq,
    Option.some.injEq] at h
  obtain ⟨_, ⟨ops, retained, _, rfl, suspended⟩, ⟨last, lastOps⟩, emitted, same⟩ := h
  cases suspended
  cases same
  obtain ⟨B, chained, tracks⟩ := follows.tracks.replays follows.placed.apart
    (retainCurrentPass_ok retained follows.followed)
    [.command .endRenderPass, .action action] (fun op here => by
      simp only [List.mem_cons, List.not_mem_nil, or_false] at here
      rcases here with rfl | rfl
      · exact ⟨covers_nil rfl, rfl⟩
      · exact ⟨covers_nil rfl, rfl⟩)
  obtain ⟨C, follows'⟩ := PassRecording.Follows.emit recording tracks follows.visited.earlier
    follows.placed chained follows.current (by rwa [List.append_assoc] at emitted)
  exact ⟨last, subpass, C, follows'⟩

theorem mem_liveInputs {pipeline : GraphicsPipeline} {sets : UInt32 → Option InputSet}
    {input : PipelineInput} {set : InputSet} (here : (input, set) ∈ liveInputs pipeline sets) :
    input ∈ pipeline.inputs.getD [] ∧ liveSet pipeline sets input = .ok (some set) := by
  obtain ⟨other, inside, found⟩ := List.mem_filterMap.mp here
  split at found
  case h_1 _ live =>
    cases found
    exact ⟨inside, live⟩
  case h_2 => cases found

/-- An input attachment that was checked is bound to the texture of the attachment that it names. -/
theorem boundTexture_ok (placed : active.Placed resources begun)
    (current : active.pass.subpasses[active.subpass]? = some subpass)
    {pipeline : GraphicsPipeline} {sets : UInt32 → Option InputSet}
    {input : PipelineInput × InputSet} {texture : TextureId}
    (live : liveSet pipeline sets input.1 = .ok (some input.2))
    (checked : validateInput resources active pipeline sets input.1 = .ok ())
    (bound : boundTexture resources input = .ok texture) :
    ∃ index, subpass.inputs[input.1.index]? = some (some index) ∧
      active.texture index = .ok texture := by
  unfold validateInput at checked
  rw [live] at checked
  obtain ⟨_, same, checked⟩ := except_bind_eq_ok.mp checked
  cases same
  simp only [except_bind_eq_ok, okOr_eq_ok, orPanic_eq_ok, inputAttachment, current,
    failIf_eq_ok, not_or, not_not, Option.some.injEq] at checked
  obtain ⟨-, -, handle, imaged, index, ⟨_, rfl, named⟩, view, viewed, _, attachedHandle,
    attachedView, attached, same, -⟩ := checked
  simp only [boundTexture, except_bind_eq_ok, okOr_eq_ok, imaged, Option.some.injEq] at bound
  obtain ⟨_, rfl, _, again, image, found, result⟩ := bound
  cases result
  rw [viewed] at again
  cases again
  have inputs : subpass.inputs[input.1.index]? = some (some index) :=
    Option.join_eq_some_iff.mp named
  refine ⟨index, inputs, placed.bound index _ _ image attachedHandle attached ?_ ?_⟩
  · rw [← same]
    exact found
  · intro mip rendered
    obtain ⟨s, only, coloured⟩ := placed.mips index mip rendered
    rw [only] at current
    obtain rfl := List.mem_singleton.mp (List.mem_of_getElem? current)
    exact (placed.fits _ (only ▸ List.mem_singleton_self _)).inputs_notMem index
      (List.mem_of_getElem? inputs) coloured

theorem PassRecording.Follows.draw (follows : recording.Follows resources begun A₀ active subpass A)
    {pipeline : GraphicsPipeline} {sets : UInt32 → Option InputSet} {work : W}
    {recording' : PassRecording W}
    (h : Vulkan.draw resources recording pipeline sets work = .ok recording') :
    ∃ active' subpass' B, recording'.Follows resources begun A₀ active' subpass' B := by
  simp only [Vulkan.draw, except_bind_eq_ok, okOr_eq_ok, follows.active_eq, Option.some.injEq] at h
  obtain ⟨_, rfl, h⟩ := h
  simp only [validateBindings, except_bind_eq_ok, okOr_eq_ok, orPanic_eq_ok, follows.current,
    Option.some.injEq] at h
  obtain ⟨_, ⟨⟨pass, number⟩, -, -, -, inputs, pipelineInputs, checked⟩, _, rfl, -, -,
    textures, bound, same⟩ := h
  cases same
  obtain ⟨B, chained, tracks⟩ := follows.tracks.replays follows.placed.apart follows.followed
    [.work work textures] (fun op here => by
      rw [List.mem_singleton.mp here]
      refine ⟨fun use used => ?_, rfl⟩
      obtain ⟨texture, inside, rfl⟩ := List.mem_map.mp used
      obtain ⟨⟨input, set⟩, live, found⟩ := mapM_ok_mem bound _ inside
      obtain ⟨inInputs, live⟩ := mem_liveInputs live
      rw [pipelineInputs] at inInputs
      obtain ⟨index, named, texture_eq⟩ := boundTexture_ok follows.placed follows.current live
        (forEach_eq_ok.mp checked _ inInputs) found
      exact .inl ⟨index, texture_eq, follows.holds.of_mem
        (Subpass.input_mem_touches (List.mem_of_getElem? named))⟩)
  exact ⟨active, subpass, B, rfl, follows.current, chained, tracks, follows.holds, follows.visited,
    follows.placed⟩

end Follows

/-! ## The end of a pass -/

namespace ActiveRenderPass

/-- The texture is the attachment's, or the one whose mip level it renders to. -/
def Concerns (active : ActiveRenderPass) (i : Nat) (t : TextureId) : Prop :=
  active.texture i = .ok t ∨ ∃ level, active.mipTargets[i]? = some (some (t, level))

/-- What is known of an attachment before the end. -/
structure KnownAt (active : ActiveRenderPass) (A : Accesses) (i : Nat) : Prop where
  texture : ∀ t before, active.texture i = .ok t → active.accessBefore i = .ok (some before) →
    A.Admits t before
  original : ∀ t level a access, active.mipTargets[i]? = some (some (t, level)) →
    active.pass.attachments[i]? = some a → attachmentAccess a.initialLayout = .ok access →
    A.Admits t access

/-- What an attachment is left with at the end: the access of its final layout, and a private
texture the one that the next pass begins with. -/
structure FinishedAt (active : ActiveRenderPass) (A : Accesses) (i : Nat) : Prop where
  texture : ∀ t before a after, active.mipTargets[i]? = some none → active.texture i = .ok t →
    active.accesses[i]? = some (some before) → active.pass.attachments[i]? = some a →
    textureAccess a.finalLayout = .ok after → A.Admits t after
  target : ∀ mip t a, active.mipTargets[i]? = some (some mip) → active.texture i = .ok t →
    active.pass.attachments[i]? = some a → a.storeOp = .store → A.Admits t .copySource
  original : ∀ t level a after, active.mipTargets[i]? = some (some (t, level)) →
    active.pass.attachments[i]? = some a → a.storeOp = .store →
    attachmentAccess a.finalLayout = .ok after → A.Admits t after

section End

variable {W : Type} {active : ActiveRenderPass} {A A₀ B : Accesses} {i j : Nat} {t : TextureId}

theorem Apart.concerns (apart : active.Apart) (first : active.Concerns i t)
    (second : active.Concerns j t) : i = j := by
  rcases first with first | ⟨level, first⟩ <;> rcases second with second | ⟨level', second⟩
  · exact apart.texture i j t first second
  · exact absurd first ((apart.original j t level' second).1 i)
  · exact absurd second ((apart.original i t level first).1 j)
  · exact apart.originals i j t level level' first second

theorem KnownAt.congr (h : active.KnownAt A i) (same : ∀ t, active.Concerns i t → B t = A t) :
    active.KnownAt B i := by
  refine ⟨fun t before named has => ?_, fun t level a access mip found initial => ?_⟩
  · unfold Accesses.Admits
    rw [same t (.inl named)]
    exact h.texture t before named has
  · unfold Accesses.Admits
    rw [same t (.inr ⟨level, mip⟩)]
    exact h.original t level a access mip found initial

theorem FinishedAt.congr (h : active.FinishedAt A i) (same : ∀ t, active.Concerns i t → B t = A t) :
    active.FinishedAt B i := by
  refine ⟨fun t before a after plain named has found final => ?_,
    fun mip t a found named attachment stored => ?_,
    fun t level a after mip found stored final => ?_⟩
  · unfold Accesses.Admits
    rw [same t (.inl named)]
    exact h.texture t before a after plain named has found final
  · unfold Accesses.Admits
    rw [same t (.inl named)]
    exact h.target mip t a found named attachment stored
  · unfold Accesses.Admits
    rw [same t (.inr ⟨level, mip⟩)]
    exact h.original t level a after mip found stored final

/-- A barrier from what is admitted to an access leaves the access, and nothing else changes. -/
theorem replays_textureBarrier {before : TextureAccess} (after : TextureAccess)
    (admits : A.Admits t before) :
    ∃ B, Replays Accesses.Step (textureBarrier t before after : List (PassOp W)) A B ∧
      B.Admits t after ∧ ∀ u, u ≠ t → B u = A u := by
  unfold textureBarrier
  split
  · refine ⟨A.learn [(t, after)], replays_singleton.mpr ⟨fun use here => ?_, rfl⟩,
      .inr (by simp [Accesses.learn]), fun u other => Accesses.learn_of_notMem fun use here => ?_⟩
    · rw [List.mem_singleton.mp here]
      exact admits
    · rw [List.mem_singleton.mp here]
      exact other.symm
  · rename_i same
    exact ⟨A, .nil A, not_not.mp same ▸ admits, fun _ _ => rfl⟩

/-- A blit between two textures that are ready for it. -/
theorem replays_mipBlit {source destination : TextureId} (sourceMip destinationMip : UInt32)
    (area : PixelRect) (reads : A.Admits source .copySource)
    (writes : A.Admits destination .copyDestination) (other : source ≠ destination) :
    ∃ B, Accesses.Step (mipBlit source sourceMip destination destinationMip area : PassOp W) A B ∧
      B.Admits source .copySource ∧ B.Admits destination .copyDestination ∧
      ∀ u, u ≠ source → u ≠ destination → B u = A u := by
  refine ⟨_, ⟨fun use here => ?_, rfl⟩, .inr ?_, .inr ?_, fun u first second =>
    Accesses.learn_of_notMem fun use here => ?_⟩
  · simp only [mipBlit, PassOp.uses, List.mem_cons, List.not_mem_nil, or_false] at here
    rcases here with rfl | rfl
    · exact reads
    · exact writes
  · simp [mipBlit, PassOp.leaves, PassOp.uses, Accesses.learn]
  · simp [mipBlit, PassOp.leaves, PassOp.uses, Accesses.learn, List.find?, other]
  · simp only [mipBlit, PassOp.leaves, PassOp.uses, List.mem_cons, List.not_mem_nil,
      or_false] at here
    rcases here with rfl | rfl
    · exact first.symm
    · exact second.symm

/-- A private texture is written back to the level that it stands for. -/
theorem writeBack_follow {target original : TextureId} {level : UInt32} {area : PixelRect}
    {initial : TextureAccess} (final : TextureAccess) (other : target ≠ original)
    (rendered : A.Admits target .renderAttachment) (known : A.Admits original initial) :
    ∃ B, Replays Accesses.Step (textureBarrier target .renderAttachment .copySource ++
        textureBarrier original initial .copyDestination ++
        [mipBlit target 0 original level area] ++
        textureBarrier original .copyDestination final : List (PassOp W)) A B ∧
      B.Admits target .copySource ∧ B.Admits original final ∧
      ∀ u, u ≠ target → u ≠ original → B u = A u := by
  obtain ⟨B, first, ready, frameB⟩ := replays_textureBarrier (W := W) .copySource rendered
  obtain ⟨C, second, open', frameC⟩ := replays_textureBarrier (W := W) .copyDestination
    (show B.Admits original initial by
      unfold Accesses.Admits
      rw [frameB original other.symm]
      exact known)
  obtain ⟨D, blit, ready', open'', frameD⟩ := replays_mipBlit (W := W) 0 level area
    (show C.Admits target .copySource by
      unfold Accesses.Admits
      rw [frameC target other]
      exact ready) open' other
  obtain ⟨E, last, done, frameE⟩ := replays_textureBarrier (W := W) final open''
  refine ⟨E, ?_, ?_, done, fun u notTarget notOriginal => ?_⟩
  · exact replays_append.mpr ⟨D, replays_append.mpr ⟨C, replays_append.mpr ⟨B, first, second⟩,
      replays_singleton.mpr blit⟩, last⟩
  · unfold Accesses.Admits
    rw [frameE target other]
    exact ready'
  · rw [frameE u notOriginal, frameD u notTarget notOriginal, frameC u notOriginal,
      frameB u notTarget]

/-- What the end records for a mip level. -/
theorem finalCommands_mip (apart : active.Apart) (known : active.KnownAt A i)
    {original : TextureId} {level : UInt32}
    (found : active.mipTargets[i]? = some (some (original, level)))
    (rendered : active.accessBefore i = .ok (some .renderAttachment))
    {before : Option TextureAccess} {commands : List (PassOp W)}
    (h : finalCommands active i before = .ok commands) :
    ∃ B, Replays Accesses.Step commands A B ∧ active.FinishedAt B i ∧
      ∀ t, ¬ active.Concerns i t → B t = A t := by
  unfold finalCommands at h
  obtain ⟨_, same, h⟩ := except_bind_eq_ok.mp h
  rw [orPanic_eq_ok, found, Option.some.injEq] at same
  subst same
  obtain ⟨a, attachment, h⟩ := except_bind_eq_ok.mp h
  rw [orPanic_eq_ok] at attachment
  split at h
  · obtain ⟨target, named, h⟩ := except_bind_eq_ok.mp h
    obtain ⟨initial, starts, h⟩ := except_bind_eq_ok.mp h
    obtain ⟨final, ends, same⟩ := except_bind_eq_ok.mp h
    cases same
    have other : target ≠ original := by
      rintro rfl
      exact (apart.original i _ level found).1 i named
    obtain ⟨B, chained, ready, done, frame⟩ := writeBack_follow (W := W) final other
      (known.texture target _ named rendered)
      (known.original original level a initial found attachment starts)
    refine ⟨B, chained, ⟨fun t before a after plain => ?_, fun mip t b _ named' _ _ => ?_,
      fun t level' b after mip' found' _ ends' => ?_⟩, fun u unconcerned => frame u ?_ ?_⟩
    · rw [found] at plain
      cases plain
    · rw [named] at named'
      cases named'
      exact ready
    · rw [found] at mip'
      rw [attachment] at found'
      cases mip'
      cases found'
      rw [ends] at ends'
      cases ends'
      exact done
    · rintro rfl
      exact unconcerned (.inl named)
    · rintro rfl
      exact unconcerned (.inr ⟨level, found⟩)
  · rename_i discards
    cases h
    refine ⟨A, .nil A, ⟨fun t before a after plain => ?_, fun mip t b _ _ found' stored => ?_,
      fun t level' b after _ found' stored => ?_⟩, fun _ _ => rfl⟩
    · rw [found] at plain
      cases plain
    · rw [attachment] at found'
      cases found'
      exact absurd stored discards
    · rw [attachment] at found'
      cases found'
      exact absurd stored discards

/-- An attachment that is no mip level is finished once its texture has the final access. -/
theorem FinishedAt.whole (found : active.mipTargets[i]? = some none) {a : AttachmentDescription}
    (attachment : active.pass.attachments[i]? = some a)
    (settled : ∀ t before after, active.texture i = .ok t →
      active.accesses[i]? = some (some before) → textureAccess a.finalLayout = .ok after →
      B.Admits t after) : active.FinishedAt B i := by
  refine ⟨fun t before b after _ named has found' final => ?_, fun mip t b mip' => ?_,
    fun t level b after mip' => ?_⟩
  · rw [attachment] at found'
    cases found'
    exact settled t before after named has final
  · rw [found] at mip'
    cases mip'
  · rw [found] at mip'
    cases mip'

/-- What the end records for an image. -/
theorem finalCommands_whole (known : active.KnownAt A i) (found : active.mipTargets[i]? = some none)
    {before : Option TextureAccess} (accessed : active.accesses[i]? = some before)
    {commands : List (PassOp W)} (h : finalCommands active i before = .ok commands) :
    ∃ B, Replays Accesses.Step commands A B ∧ active.FinishedAt B i ∧
      ∀ t, ¬ active.Concerns i t → B t = A t := by
  unfold finalCommands at h
  obtain ⟨_, same, h⟩ := except_bind_eq_ok.mp h
  rw [orPanic_eq_ok, found, Option.some.injEq] at same
  subst same
  obtain ⟨a, attachment, h⟩ := except_bind_eq_ok.mp h
  rw [orPanic_eq_ok] at attachment
  cases before with
  | none =>
    cases h
    refine ⟨A, .nil A, .whole found attachment fun t before after _ has => ?_, fun _ _ => rfl⟩
    rw [accessed] at has
    cases has
  | some before =>
    cases final : textureAccess a.finalLayout with
    | error e =>
      rw [final] at h
      cases h
      refine ⟨A, .nil A, .whole found attachment fun t before after _ _ ends => ?_, fun _ _ => rfl⟩
      rw [final] at ends
      cases ends
    | ok after =>
      rw [final] at h
      have has : active.accessBefore i = .ok (some before) := by
        unfold accessBefore
        rw [accessed]
        rfl
      by_cases different : before ≠ after
      · simp only [if_pos different, except_bind_eq_ok] at h
        obtain ⟨t, named, same⟩ := h
        cases same
        obtain ⟨B, chained, settled, frame⟩ := replays_textureBarrier (W := W) after
          (known.texture t before named has)
        rw [textureBarrier, if_pos different] at chained
        refine ⟨B, chained, .whole found attachment fun u _ after' named' _ ends => ?_,
          fun u unconcerned => frame u fun same => unconcerned (.inl (same ▸ named))⟩
        rw [named] at named'
        rw [final] at ends
        cases named'
        cases ends
        exact settled
      · simp only [if_neg different] at h
        cases h
        refine ⟨A, .nil A, .whole found attachment fun u _ after' named _ ends => ?_,
          fun _ _ => rfl⟩
        rw [final] at ends
        cases ends
        exact not_not.mp different ▸ known.texture u before named has

/-- What the end records for one attachment. -/
theorem finalCommands_follow (apart : active.Apart) (known : active.KnownAt A i)
    (rendered : ∀ mip, active.mipTargets[i]? = some (some mip) →
      active.accessBefore i = .ok (some .renderAttachment))
    {before : Option TextureAccess} (accessed : active.accesses[i]? = some before)
    {commands : List (PassOp W)} (h : finalCommands active i before = .ok commands) :
    ∃ B, Replays Accesses.Step commands A B ∧ active.FinishedAt B i ∧
      ∀ t, ¬ active.Concerns i t → B t = A t := by
  obtain ⟨mip, found, -⟩ := except_bind_eq_ok.mp h
  rw [orPanic_eq_ok] at found
  cases mip with
  | some mip => exact finalCommands_mip apart known found (rendered mip found) h
  | none => exact finalCommands_whole known found accessed h

/-- What the end records for the attachments one after the other. -/
theorem finalCommands_all (apart : active.Apart) {items : List (Option TextureAccess × Nat)}
    (nodup : (items.map Prod.snd).Nodup)
    (accessed : ∀ item ∈ items, active.accesses[item.2]? = some item.1)
    (known : ∀ item ∈ items, active.KnownAt A item.2)
    (rendered : ∀ i mip, active.mipTargets[i]? = some (some mip) →
      active.accessBefore i = .ok (some .renderAttachment))
    {commands : List (List (PassOp W))}
    (h : items.mapM (fun item => finalCommands active item.2 item.1) = .ok commands) :
    ∃ B, Replays Accesses.Step commands.flatten A B ∧
      (∀ item ∈ items, active.FinishedAt B item.2) ∧
      ∀ t, (∀ item ∈ items, ¬ active.Concerns item.2 t) → B t = A t := by
  induction items generalizing A commands with
  | nil =>
    cases h
    exact ⟨A, .nil A, fun _ here => (by cases here), fun _ _ => rfl⟩
  | cons item rest ih =>
    rw [List.mapM_cons, except_bind_eq_ok] at h
    obtain ⟨first, recorded, h⟩ := h
    obtain ⟨others, recordedOthers, same⟩ := except_bind_eq_ok.mp h
    cases same
    rw [List.map_cons, List.nodup_cons] at nodup
    rw [List.forall_mem_cons] at accessed known
    -- Attachments concern different textures, so what one is left with stays.
    obtain ⟨B, chained, finished, frame⟩ :=
      finalCommands_follow apart known.1 (rendered item.2) accessed.1 recorded
    have apartFrom : ∀ other ∈ rest, ∀ t, active.Concerns other.2 t → ¬ active.Concerns item.2 t :=
      fun other here t one two =>
        nodup.1 (apart.concerns two one ▸ List.mem_map_of_mem here)
    obtain ⟨C, later, finishedOthers, frameOthers⟩ := ih nodup.2 accessed.2
      (fun other here => (known.2 other here).congr fun t concerns =>
        frame t (apartFrom other here t concerns)) recordedOthers
    refine ⟨C, ?_, List.forall_mem_cons.mpr ⟨?_, finishedOthers⟩, fun t unconcerned => ?_⟩
    · rw [List.flatten_cons]
      exact replays_append.mpr ⟨B, chained, later⟩
    · exact finished.congr fun t concerns =>
        frameOthers t fun other here one => apartFrom other here t one concerns
    · rw [List.forall_mem_cons] at unconcerned
      rw [frameOthers t unconcerned.2, frame t unconcerned.1]

end End

end ActiveRenderPass

end Sgfx.Vulkan
