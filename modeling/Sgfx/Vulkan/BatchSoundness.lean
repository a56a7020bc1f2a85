import Mathlib.Data.List.Forall2
import Sgfx.Vulkan.DrawPlans
import Sgfx.Vulkan.PieceReplay

/-!
# Batches of a recording

The batches of a valid recording are its commands in order, with large uploads replaced by uploads
of their rows.  Each batch is valid by itself, uploads no more than the budget, and is one draw
plan.  Only a single row that is larger than the budget cannot be batched.

A batch is validated on an encoder of its own, on which no writes of earlier batches are waiting,
so it accepts whatever the whole recording accepts at that point: the open batch always leads to a
session that is at least as lenient as that of the whole recording.

## Main Definitions

* `Complete`, `Replaces`, `Batched`
* `Batching.Sound` — the invariant of the batches

## Main Results

* `Batching.pushRows_sound`, `Batching.step_sound`
* `split_sound`
-/

namespace Sgfx.Vulkan

open Replay

/-- A batch that can be submitted by itself. -/
structure Complete (T : ResourceTable) (budget : Nat) (batch : List OwnedCommand) : Prop where
  accepted : validate T grantAll batch = .ok ()
  whole : ownedPasses.Nested batch
  within : uploadTotal batch ≤ budget
  ordered : PlanOrdered batch

/-- What stands for a command in the batches: the command, or uploads of its rows. -/
inductive Replaces (T : ResourceTable) (c : OwnedCommand) : List OwnedCommand → Prop
  | kept : Replaces T c [c]
  | rows {u : Upload} {desc : TextureDesc} {pixel : UInt32} {pieces : List Upload}
      (upload : uploadOf c = some u) (texture : T.texture u.texture = .ok desc)
      (format : desc.format.bytesPerPixel = some pixel)
      (splits : u.SplitsInto pixel.toNat pieces) : Replaces T c (pieces.map Upload.command)

/-- The batches of a recording. -/
structure Batched (T : ResourceTable) (budget : Nat) (owned : List OwnedCommand)
    (batches : List (List OwnedCommand)) : Prop where
  replaced : ∃ groups, List.Forall₂ (Replaces T) owned groups ∧ batches.flatten = groups.flatten
  complete : ∀ batch ∈ batches, Complete T budget batch
  nonempty : owned ≠ [] → ∀ batch ∈ batches, batch ≠ []

/-- One row of an upload, without padding, is larger than the budget. -/
def TooWide (T : ResourceTable) (budget : Nat) (c : OwnedCommand) : Prop :=
  ∃ u desc pixel, uploadOf c = some u ∧ T.texture u.texture = .ok desc ∧
    desc.format.bytesPerPixel = some pixel ∧ budget < u.rect.width.toNat * pixel.toNat

section

variable {T : ResourceTable} {place : Placement} {budget length : Nat} {B B' : Batching}
  {s s₁ : Session} {c : OwnedCommand} {e e₀ e₁ : CommandEncoder}
  {owned : List OwnedCommand}

/-! ## Complete batches -/

/-- The passes of a valid recording are complete. -/
theorem nested_of_validate (h : validate T grantAll owned = .ok ()) : ownedPasses.Nested owned := by
  unfold validate recordWith at h
  match hfold : owned.foldlM (Replay.step T grantAll) (.idle .new) with
  | .error error =>
    rw [foldlM_step_strict new_lenient trivial hfold] at h
    cases h
  | .ok s =>
    obtain ⟨s', hfold', hlenient⟩ := foldlM_step_lenient new_lenient hfold
    rw [hfold'] at h
    match hfinish : finish s with
    | .ok e => exact (finish_tracks (new_tracks.foldlM hfold) hfinish).1
    | .error error =>
      replace h : ((finish s').bind fun e => Except.ok e.commands).map (fun _ => ()) = .ok () := h
      rw [(finish_lenient hlenient).2 error hfinish] at h
      cases h

/-- A valid recording leads outside passes. -/
theorem replay_of_validate (h : validate T grantAll owned = .ok ()) :
    ∃ e, owned.foldlM (Replay.step T grantAll) (.idle .forValidation) = .ok (.idle e) ∧
      e.passOpen = false := by
  unfold validate recordWith at h
  match hfold : owned.foldlM (Replay.step T grantAll) (.idle .forValidation) with
  | .error error =>
    rw [hfold] at h
    cases h
  | .ok (.idle e) =>
    rw [hfold] at h
    match hopen : e.passOpen with
    | false => exact ⟨e, rfl, hopen⟩
    | true =>
      replace h : ((finish (.idle e)).bind fun e => Except.ok e.commands).map (fun _ => ()) =
        .ok () := h
      rw [finish_idle, hopen] at h
      cases h
  | .ok (.render p) | .ok (.compute p) =>
    rw [hfold] at h
    cases h

theorem validate_of_replay
    (h : owned.foldlM (Replay.step T grantAll) (.idle .forValidation) = .ok (.idle e))
    (hclosed : e.passOpen = false) : validate T grantAll owned = .ok () := by
  rw [validate, recordWith, h]
  show ((finish (.idle e)).bind fun e => Except.ok e.commands).map (fun _ => ()) = .ok ()
  rw [finish_idle, hclosed]
  rfl

/-! ## The invariant -/

/-- Wherever this session leads to the other with a command, more lenient ones do. -/
def Leads (T : ResourceTable) (c : OwnedCommand) (s s₁ : Session) : Prop :=
  ∀ s', s.Lenient False s' → ∃ s₁', Replay.step T grantAll s' c = .ok s₁' ∧ s₁.Lenient False s₁'

namespace Batching

/-- The commands of all batches. -/
def contents (B : Batching) : List OwnedCommand := B.batches.flatten ++ B.batch

/-- The batches when the whole recording is at a session. -/
structure Sound (T : ResourceTable) (budget : Nat) (B : Batching) (s : Session) : Prop where
  complete : ∀ batch ∈ B.batches, Complete T budget batch ∧ batch ≠ []
  counts : B.bytes = uploadTotal B.batch
  within : B.bytes ≤ budget
  shows : B.plan.Shows B.batch
  ordered : PlanOrdered B.batch
  inPass : B.inPass = !idle s
  replays : ∃ s', B.batch.foldlM (Replay.step T grantAll) (.idle .forValidation) = .ok s' ∧
    s.Lenient False s'

/-- One more command in the open batch. -/
structure Extends (B B' : Batching) (c : OwnedCommand) : Prop where
  batches : B'.batches = B.batches
  batch : B'.batch = B.batch ++ [c]
  bytes : B'.bytes = B.bytes + textureBytes c
  plan : B'.plan = B.plan.record c

theorem contents_cut : B.cut.contents = B.contents := by
  rw [contents, cut, contents, List.flatten_append, List.flatten_singleton, List.append_nil]

theorem contents_cutOver : (B.cutOver budget length).contents = B.contents := by
  unfold cutOver
  split
  · exact contents_cut
  · rfl

theorem Extends.contents (h : B.Extends B' c) : B'.contents = B.contents ++ [c] := by
  rw [Batching.contents, h.batches, h.batch, Batching.contents, List.append_assoc]

theorem push_extends : (B.cutOver budget (textureBytes c)).Extends (B.push budget c) c :=
  ⟨rfl, rfl, rfl, rfl⟩

theorem Sound.empty : Batching.empty.Sound T budget (.idle .forValidation) where
  complete _ hbatch := absurd hbatch List.not_mem_nil
  counts := rfl
  within := Nat.zero_le budget
  shows := PlanBoundary.shows_empty
  ordered := .nil
  inPass := rfl
  replays := ⟨_, rfl, .idle ⟨rfl, Nat.le_refl _, List.Subset.refl _, List.Subset.refl _,
    fun h => h.elim⟩⟩

/-- The open batch is complete where no pass is open, and an empty one fits any such point. -/
theorem Sound.cut (h : B.Sound T budget (.idle e)) (hclosed : e.passOpen = false)
    (hbatch : B.batch ≠ []) (hclosed₀ : e₀.passOpen = false) :
    B.cut.Sound T budget (.idle e₀) where
  complete batch hmem := by
    rcases List.mem_append.mp hmem with hmem | hmem
    · exact h.complete batch hmem
    · obtain rfl := List.mem_singleton.mp hmem
      obtain ⟨s', hreplay, hlenient⟩ := h.replays
      cases hlenient with
      | @idle _ e' hlenient =>
        have haccepted : validate T grantAll B.batch = .ok () :=
          validate_of_replay hreplay (hlenient.passOpen.trans hclosed)
        exact ⟨⟨haccepted, nested_of_validate haccepted, h.counts ▸ h.within, h.ordered⟩, hbatch⟩
  counts := rfl
  within := Nat.zero_le budget
  shows := PlanBoundary.shows_empty
  ordered := .nil
  inPass := h.inPass
  replays := ⟨_, rfl, .idle ⟨hclosed₀.symm, Nat.zero_le _, List.nil_subset _, List.nil_subset _,
    fun h => h.elim⟩⟩

theorem Sound.cutOver (h : B.Sound T budget (.idle e)) (hclosed : e.passOpen = false) :
    (B.cutOver budget length).Sound T budget (.idle e) := by
  unfold Batching.cutOver
  split
  · rename_i hover
    exact h.cut hclosed hover.2 hclosed
  · exact h

/-- There is room in the open batch for what is not larger than the budget. -/
theorem Sound.room (h : (B.cutOver budget length).Sound T budget s) (hlength : length ≤ budget) :
    (B.cutOver budget length).bytes + length ≤ budget := by
  unfold Batching.cutOver at h ⊢
  split
  · rw [Batching.cut, Nat.zero_add]
    exact hlength
  · rename_i hover
    rw [if_neg hover] at h
    by_cases hbatch : B.batch = []
    · rw [h.counts, hbatch, uploadTotal, Nat.zero_add]
      exact hlength
    · exact Nat.not_lt.mp fun hlt => hover ⟨hlt, hbatch⟩

theorem Sound.extend (h : B.Sound T budget s) (hextends : B.Extends B' c)
    (hpass : B'.inPass = !idle s₁) (hroom : B.bytes + textureBytes c ≤ budget)
    (hsplit : B.plan.requiresSplit c = false) (hleads : Leads T c s s₁) :
    B'.Sound T budget s₁ where
  complete := hextends.batches ▸ h.complete
  counts := by rw [hextends.bytes, hextends.batch, uploadTotal_snoc, h.counts]
  within := hextends.bytes ▸ hroom
  shows := by
    rw [hextends.plan, hextends.batch]
    exact h.shows.record
  ordered := hextends.batch ▸ h.ordered.snoc h.shows hsplit
  inPass := hpass
  replays := by
    obtain ⟨s', hreplay, hlenient⟩ := h.replays
    obtain ⟨s₁', hstep, hlenient'⟩ := hleads s' hlenient
    refine ⟨s₁', ?_, hlenient'⟩
    rw [hextends.batch, List.foldlM_append, hreplay]
    show [c].foldlM (Replay.step T grantAll) s' = .ok s₁'
    rw [List.foldlM_cons, hstep]
    rfl

/-! ## The rows of a large upload -/

section Rows

variable {u : Upload} {desc : TextureDesc} {pixel : UInt32} {chunk done start rows : Nat}

/-- The rows that were written, and the batches with them. -/
structure RowsWritten (T : ResourceTable) (budget : Nat) (u : Upload) (pixel : UInt32)
    (e e₁ : CommandEncoder) (B : Batching) (done : Nat) (B' : Batching) : Prop where
  pieces : ∃ pieces : List Upload, B'.contents = B.contents ++ pieces.map Upload.command ∧
    (∀ p ∈ pieces, ∃ start rows, u.IsPiece (u.rect.width.toNat * pixel.toNat) start rows p ∧
      start + rows ≤ done) ∧
    (pieces.Pairwise fun p q => p.rect.y.toNat + p.rect.height.toNat ≤ q.rect.y.toNat) ∧
    ∀ I, pieces.foldl (fun I p => p.write pixel.toNat I) I = u.writeRows pixel.toNat done I
  /-- The next rows are put where the session before the upload accepts them. -/
  next : done < u.rect.height.toNat → ∀ length, u.rect.width.toNat * pixel.toNat ≤ length →
    (B'.cutOver budget length).Sound T budget (.idle e)
  sound : 0 < done → B'.Sound T budget (.idle e₁)

theorem RowsWritten.zero (h : B.Sound T budget (.idle e)) (hclosed : e.passOpen = false) :
    RowsWritten T budget u pixel e e₁ B 0 B where
  pieces := ⟨[], (List.append_nil _).symm, fun _ hp => absurd hp List.not_mem_nil,
    List.Pairwise.nil, fun I => (Upload.writeRows_zero I).symm⟩
  next _ _ _ := h.cutOver hclosed
  sound hdone := absurd hdone (Nat.lt_irrefl 0)

/-- As many rows as fit into the budget leave no room for one more. -/
theorem chunk_fits {rowBytes : Nat} (hpos : 0 < rowBytes) (hrow : rowBytes ≤ budget) :
    0 < max (budget / rowBytes) 1 ∧ max (budget / rowBytes) 1 * rowBytes ≤ budget ∧
      budget < max (budget / rowBytes) 1 * rowBytes + rowBytes := by
  have hchunk : 1 ≤ budget / rowBytes := (Nat.one_le_div_iff hpos).mpr hrow
  rw [Nat.max_eq_left hchunk]
  refine ⟨hchunk, Nat.div_mul_le_self budget rowBytes, ?_⟩
  rw [← Nat.succ_mul, Nat.mul_comm]
  exact Nat.lt_mul_div_succ budget hpos

/-- The next piece of an upload is pushed. -/
theorem RowsWritten.step (place : Placement) (h : RowsWritten T budget u pixel e e₁ B done B')
    (haccepted : Accepted T e u desc pixel e₁) (hclosed : e.passOpen = false)
    (hclosed₁ : e₁.passOpen = false) (hlt : done < u.rect.height.toNat)
    (hchunk : 0 < chunk) (hfits : chunk * (u.rect.width.toNat * pixel.toNat) ≤ budget)
    (hfull : budget < chunk * (u.rect.width.toNat * pixel.toNat) +
      u.rect.width.toNat * pixel.toNat) :
    ∃ p, u.piece place (u.rect.width.toNat * pixel.toNat) done
        (min chunk (u.rect.height.toNat - done)) = .ok p ∧
      RowsWritten T budget u pixel e e₁ B (done + min chunk (u.rect.height.toNat - done))
        (B'.push budget p.command) := by
  have hrowsPos : 0 < min chunk (u.rect.height.toNat - done) := by omega
  have hrows : done + min chunk (u.rect.height.toNat - done) ≤ u.rect.height.toNat := by omega
  obtain ⟨p, hpiece, hp⟩ := Upload.piece_ok place haccepted.fits hrowsPos hrows
  have hbytes : textureBytes p.command =
      min chunk (u.rect.height.toNat - done) * (u.rect.width.toNat * pixel.toNat) := by
    show p.data.bytes.length = _
    rw [hp.data]
    exact haccepted.fits.pixels_length hrows
  have hroom : textureBytes p.command ≤ budget := by
    rw [hbytes]
    exact Nat.le_trans (Nat.mul_le_mul_right _ (Nat.min_le_left _ _)) hfits
  have hrow : u.rect.width.toNat * pixel.toNat ≤ textureBytes p.command := by
    rw [hbytes]
    exact Nat.le_mul_of_pos_left _ hrowsPos
  have hready := h.next hlt _ hrow
  have hleads : Leads T p.command (.idle e) (.idle e₁) := by
    intro s' hlenient
    cases hlenient with
    | idle hlenient =>
      obtain ⟨e₁', hstep, hlenient'⟩ := haccepted.piece hlenient hp hrows
      exact ⟨_, hstep, .idle hlenient'⟩
  have hsound : (B'.push budget p.command).Sound T budget (.idle e₁) :=
    hready.extend push_extends hready.inPass (hready.room hroom) rfl hleads
  obtain ⟨pieces, hcontents, hpieces, hordered, hwrites⟩ := h.pieces
  refine ⟨p, hpiece, ⟨pieces ++ [p], ?_, ?_, ?_, fun I => ?_⟩, fun hmore length hlength => ?_,
    fun _ => hsound⟩
  · rw [push_extends.contents, contents_cutOver, hcontents, List.append_assoc, List.map_append]
    rfl
  · intro q hq
    rcases List.mem_append.mp hq with hq | hq
    · obtain ⟨start, rows, hpieceOf, hle⟩ := hpieces q hq
      exact ⟨start, rows, hpieceOf, Nat.le_trans hle (Nat.le_add_right _ _)⟩
    · obtain rfl := List.mem_singleton.mp hq
      exact ⟨done, _, hp, Nat.le_refl _⟩
  · refine List.pairwise_append.mpr ⟨hordered, List.pairwise_singleton _ _, fun q hq q' hq' => ?_⟩
    obtain rfl := List.mem_singleton.mp hq'
    obtain ⟨start, rows, hpieceOf, hle⟩ := hpieces q hq
    rw [hpieceOf.y, hpieceOf.height, hp.y]
    omega
  · rw [List.foldl_append, hwrites I]
    exact Upload.write_rows hp haccepted.fits hrows I
  · -- More rows are left, so this piece has used up the budget.
    have hbatch : (B'.push budget p.command).batch ≠ [] := by
      rw [push_extends.batch]
      exact List.append_ne_nil_of_right_ne_nil _ (List.cons_ne_nil _ _)
    have hover : budget < (B'.push budget p.command).bytes + length := by
      rw [push_extends.bytes, hbytes, Nat.min_eq_left (by omega)]
      omega
    rw [cutOver, if_pos ⟨hover, hbatch⟩]
    exact hsound.cut hclosed₁ hbatch hclosed

theorem pushPieces_sound (place : Placement) (h : B.Sound T budget (.idle e))
    (haccepted : Accepted T e u desc pixel e₁) (hclosed : e.passOpen = false) (hclosed₁ : e₁.passOpen = false)
    (hchunk : 0 < chunk) (hfits : chunk * (u.rect.width.toNat * pixel.toNat) ≤ budget)
    (hfull : budget < chunk * (u.rect.width.toNat * pixel.toNat) +
      u.rect.width.toNat * pixel.toNat) :
    ∃ B', (rowStarts u.rect.height.toNat chunk).foldlM
        (pushPiece place budget (u.rect.width.toNat * pixel.toNat) chunk u) B = .ok B' ∧
      RowsWritten T budget u pixel e e₁ B u.rect.height.toNat B' := by
  rw [rowStarts, List.foldlM_map]
  obtain ⟨B', hfold, hwritten⟩ := foldlM_range_ok
    (f := fun B i => pushPiece place budget (u.rect.width.toNat * pixel.toNat) chunk u B (i * chunk))
    (n := (u.rect.height.toNat + chunk - 1) / chunk) (s := B)
    (fun i B' => RowsWritten T budget u pixel e e₁ B (min (i * chunk) u.rect.height.toNat) B')
    (by
      rw [Nat.zero_mul, Nat.zero_min]
      exact .zero h hclosed)
    fun i B' hi hwritten => by
      have hlt : i * chunk < u.rect.height.toNat := by
        have hle := (Nat.le_div_iff_mul_le hchunk).mp (Nat.succ_le_of_lt hi)
        rw [Nat.succ_mul] at hle
        omega
      rw [Nat.min_eq_left (Nat.le_of_lt hlt)] at hwritten
      obtain ⟨p, hpiece, hnext⟩ := hwritten.step place haccepted hclosed hclosed₁ hlt
        hchunk hfits hfull
      refine ⟨_, except_bind_eq_ok.mpr ⟨p, hpiece, rfl⟩, ?_⟩
      have hdone : min ((i + 1) * chunk) u.rect.height.toNat =
          i * chunk + min chunk (u.rect.height.toNat - i * chunk) := by
        rw [Nat.succ_mul]
        omega
      rwa [hdone]
  refine ⟨B', hfold, ?_⟩
  -- The last piece ends with the last row.
  have hall : u.rect.height.toNat ≤ (u.rect.height.toNat + chunk - 1) / chunk * chunk := by
    have hlast := Nat.lt_div_mul_add hchunk (a := u.rect.height.toNat + chunk - 1)
    omega
  rwa [Nat.min_eq_right hall] at hwritten

/-- All rows of an upload that is larger than the budget. -/
theorem pushRows_sound (place : Placement) (h : B.Sound T budget (.idle e))
    (haccepted : Accepted T e u desc pixel e₁) (hclosed : e.passOpen = false)
    (hwide : u.rect.width.toNat * pixel.toNat ≤ budget) :
    ∃ B' pieces, B.pushRows T place budget u = .ok B' ∧ B'.Sound T budget (.idle e₁) ∧
      u.SplitsInto pixel.toNat pieces ∧
      B'.contents = B.contents ++ pieces.map Upload.command := by
  have hwidth : 0 < u.rect.width.toNat :=
    Nat.pos_of_ne_zero fun hzero => u.rect.valid.1 (UInt32.toNat_inj.mp hzero)
  have hheight : 0 < u.rect.height.toNat :=
    Nat.pos_of_ne_zero fun hzero => u.rect.valid.2.1 (UInt32.toNat_inj.mp hzero)
  have hrow := Nat.mul_pos hwidth haccepted.pixel_pos
  obtain ⟨hchunk, hfits, hfull⟩ := chunk_fits hrow hwide
  have hclosed₁ : e₁.passOpen = false := by
    obtain ⟨command, -, hpush⟩ := haccepted.pushed
    rw [(CommandEncoder.push_ok hpush).2]
    exact hclosed
  generalize hof : max (budget / (u.rect.width.toNat * pixel.toNat)) 1 = chunk at hchunk hfits hfull
  obtain ⟨B', hfold, hwritten⟩ := pushPieces_sound place h haccepted hclosed hclosed₁
    hchunk hfits hfull
  obtain ⟨pieces, hcontents, hpieces, hordered, hwrites⟩ := hwritten.pieces
  refine ⟨B', pieces, ?_, hwritten.sound hheight, ⟨fun p hp => ?_, hordered, hwrites⟩, hcontents⟩
  · refine except_bind_eq_ok.mpr ⟨_, haccepted.reference, ?_⟩
    refine except_bind_eq_ok.mpr ⟨desc, haccepted.resolves, ?_⟩
    refine except_bind_eq_ok.mpr ⟨pixel, okOr_eq_ok.mpr haccepted.format, ?_⟩
    refine except_bind_eq_ok.mpr ⟨(), failIf_eq_ok.mpr (Nat.not_lt.mpr hwide), ?_⟩
    rw [hof]
    exact hfold
  · obtain ⟨start, rows, hpiece, -⟩ := hpieces p hp
    exact ⟨start, rows, hpiece⟩

end Rows

/-! ## Commands -/

theorem step_alone {k : PassKind} (h : ownedPasses.outside c = true ∨ ownedPasses.inside k c = true) :
    B.step T place budget c =
      if (B.newPlan c).inPass then .ok ((B.newPlan c).add c)
      else (B.newPlan c).transfer T place budget c := by
  cases c with
  | beginRenderPass | beginRenderPassWithAttachments | beginComputePass | endRenderPass
  | endComputePass =>
    rcases h with h | h
    · cases h
    · cases k <;> cases h
  | _ => rfl

theorem step_opens (h : (ownedPasses.opens c).isSome = true) :
    B.step T place budget c = .ok ((B.newPlan c).beginPass budget c) := by
  cases c with
  | beginRenderPass | beginRenderPassWithAttachments | beginComputePass => rfl
  | _ => cases h

theorem step_closes (h : (ownedPasses.closes c).isSome = true) :
    B.step T place budget c = .ok { (B.newPlan c).add c with inPass := false } := by
  cases c with
  | endRenderPass | endComputePass => rfl
  | _ => cases h

/-- What fills or ends a pass uploads nothing and begins nothing. -/
theorem quiet {k : PassKind}
    (h : ownedPasses.inside k c = true ∨ (ownedPasses.closes c).isSome = true) :
    textureBytes c = 0 ∧ (∀ plan : PlanBoundary, plan.record c = plan) ∧
      ∀ plan : PlanBoundary, plan.requiresSplit c = false := by
  cases c with
  | setPipeline | setProgrammablePipeline | setBindGroup | setVertexBuffer | setVertexBufferSlot
  | setIndexBuffer | setTexture | setSampler | setUniforms | setDrawIndex | setScissor
  | setViewport | setPushConstants | draw | drawInstanced | drawIndexedInstanced | drawIndexed
  | setComputePipeline | dispatch | endRenderPass | endComputePass =>
    exact ⟨rfl, fun _ => rfl, fun _ => rfl⟩
  | _ =>
    rcases h with h | h
    · cases k <;> cases h
    · cases h

theorem opens_textureBytes (h : (ownedPasses.opens c).isSome = true) : textureBytes c = 0 := by
  cases c with
  | beginRenderPass | beginRenderPassWithAttachments | beginComputePass => rfl
  | _ => cases h

/-- What uploads bytes to a texture is an upload. -/
theorem upload_of_bytes (h : 0 < textureBytes c) : ∃ u, uploadOf c = some u := by
  cases c with
  | writeTexture | writeTextureMip | writeTextureLayer => exact ⟨_, rfl⟩
  | resourceBarrier barrier => cases barrier <;> exact absurd h (Nat.lt_irrefl 0)
  | _ => exact absurd h (Nat.lt_irrefl 0)

theorem empty_requiresSplit : PlanBoundary.empty.requiresSplit c = false := by
  show (if _ then false else if _ then false else false) = false
  rw [ite_self, ite_self]

theorem cutOver_requiresSplit (h : B.plan.requiresSplit c = false) :
    (B.cutOver budget length).plan.requiresSplit c = false := by
  unfold cutOver
  split
  · exact empty_requiresSplit
  · exact h

theorem contents_newPlan : (B.newPlan c).contents = B.contents := by
  unfold newPlan
  split
  · exact contents_cut
  · rfl

/-- The open batch can be continued with the command. -/
theorem Sound.newPlan (h : B.Sound T budget (.idle e)) (hclosed : e.passOpen = false) :
    (B.newPlan c).Sound T budget (.idle e) ∧ (B.newPlan c).plan.requiresSplit c = false := by
  unfold Batching.newPlan
  split
  · rename_i hboundary
    exact ⟨h.cut hclosed (h.shows.ne_nil hboundary.2) hclosed, empty_requiresSplit⟩
  · rename_i hboundary
    exact ⟨h, Bool.eq_false_iff.mpr fun hsplit => hboundary ⟨h.inPass, hsplit⟩⟩

theorem leads_of_step (h : Replay.step T grantAll s c = .ok s₁) : Leads T c s s₁ :=
  fun _ hlenient => step_ok_lenient hlenient h

/-- What the loop makes of a command. -/
def Handles (T : ResourceTable) (budget : Nat) (B : Batching) (s₁ : Session) (c : OwnedCommand)
    (result : Except Error Batching) : Prop :=
  (∃ B' group, result = .ok B' ∧ B'.Sound T budget s₁ ∧ Replaces T c group ∧
    B'.contents = B.contents ++ group) ∨
  (result = .error .invalidValue ∧ TooWide T budget c)

theorem Sound.transfer (place : Placement) (h : B.Sound T budget (.idle e))
    (hstep : Replay.step T grantAll (.idle e) c = .ok s₁) (hidle : idle s₁ = true)
    (hsplit : B.plan.requiresSplit c = false) :
    Handles T budget B s₁ c (B.transfer T place budget c) := by
  have hclosed := closed_of_step hstep
  unfold Batching.transfer
  split
  · rename_i hfits
    have hready : (B.cutOver budget (textureBytes c)).Sound T budget (.idle e) :=
      h.cutOver hclosed
    refine .inl ⟨_, [c], rfl, ?_, .kept, ?_⟩
    · refine hready.extend push_extends ?_ (hready.room hfits) (cutOver_requiresSplit hsplit)
        (leads_of_step hstep)
      rw [hidle]
      exact hready.inPass
    · rw [push_extends.contents, contents_cutOver]
  · rename_i hlarge
    obtain ⟨u, hupload⟩ := upload_of_bytes (Nat.lt_of_le_of_lt (Nat.zero_le _) (Nat.not_le.mp hlarge))
    obtain ⟨desc, pixel, e₁, rfl, haccepted⟩ := accepted_of_step hupload hstep
    rw [hupload]
    by_cases hwide : budget < u.rect.width.toNat * pixel.toNat
    · refine .inr ⟨?_, u, desc, pixel, hupload, haccepted.resolves, haccepted.format, hwide⟩
      show B.pushRows T place budget u = .error .invalidValue
      refine except_bind_eq_error.mpr (.inr ⟨_, haccepted.reference, ?_⟩)
      refine except_bind_eq_error.mpr (.inr ⟨desc, haccepted.resolves, ?_⟩)
      refine except_bind_eq_error.mpr (.inr ⟨pixel, okOr_eq_ok.mpr haccepted.format, ?_⟩)
      exact except_bind_eq_error.mpr (.inl (failIf_eq_error.mpr ⟨hwide, rfl⟩))
    · obtain ⟨B', pieces, hpush, hsound, hsplits, hcontents⟩ :=
        pushRows_sound place h haccepted hclosed (Nat.not_lt.mp hwide)
      exact .inl ⟨B', _, hpush, hsound, .rows hupload haccepted.resolves haccepted.format hsplits,
        hcontents⟩

/-- Inside a pass no batch is completed. -/
theorem newPlan_eq (h : B.inPass = true) : B.newPlan c = B :=
  if_neg fun hboundary => Bool.false_ne_true (hboundary.1.symm.trans h)

/-- What fills or ends a pass stays in its batch. -/
theorem Sound.quiet {k : PassKind} (h : B.Sound T budget s)
    (hstep : Replay.step T grantAll s c = .ok s₁) (hpass : B'.inPass = !idle s₁)
    (hclass : ownedPasses.inside k c = true ∨ (ownedPasses.closes c).isSome = true)
    (hbatches : B'.batches = B.batches) (hbatch : B'.batch = B.batch ++ [c])
    (hbytes : B'.bytes = B.bytes) (hplan : B'.plan = B.plan) :
    B'.Sound T budget s₁ ∧ B'.contents = B.contents ++ [c] := by
  obtain ⟨hnone, hrecord, hsplit⟩ := Batching.quiet hclass
  have hextends : B.Extends B' c :=
    ⟨hbatches, hbatch, by rw [hbytes, hnone, Nat.add_zero], by rw [hplan, hrecord]⟩
  refine ⟨h.extend hextends hpass ?_ (hsplit _) (leads_of_step hstep), hextends.contents⟩
  rw [hnone]
  exact h.within

theorem Sound.beginPass (h : B.Sound T budget (.idle e))
    (hstep : Replay.step T grantAll (.idle e) c = .ok s₁) (hidle : idle s₁ = false)
    (hclass : (ownedPasses.opens c).isSome = true) (hsplit : B.plan.requiresSplit c = false) :
    (B.beginPass budget c).Sound T budget s₁ ∧
      (B.beginPass budget c).contents = B.contents ++ [c] := by
  have hclosed := closed_of_step hstep
  have hnone := opens_textureBytes hclass
  unfold Batching.beginPass
  generalize hready : (if budget ≤ B.bytes ∧ B.batch ≠ [] then B.cut else B) = B₀
  have hsound : B₀.Sound T budget (.idle e) ∧ B₀.plan.requiresSplit c = false ∧
      B₀.contents = B.contents := by
    rw [← hready]
    split
    · rename_i hfull
      exact ⟨h.cut hclosed hfull.2 hclosed, empty_requiresSplit, contents_cut⟩
    · exact ⟨h, hsplit, rfl⟩
  obtain ⟨hsound, hsplit₀, hcontents⟩ := hsound
  have hextends : B₀.Extends { B₀.add c with plan := B₀.plan.record c, inPass := true } c :=
    ⟨rfl, rfl, by rw [hnone]; rfl, rfl⟩
  refine ⟨hsound.extend hextends ?_ ?_ hsplit₀ (leads_of_step hstep), ?_⟩
  · rw [hidle]
    rfl
  · rw [hnone]
    exact hsound.within
  · rw [hextends.contents, hcontents]

/-- One command of the loop. -/
theorem step_sound (place : Placement) (h : B.Sound T budget s) (hstep : Replay.step T grantAll s c = .ok s₁) :
    Handles T budget B s₁ c (B.step T place budget c) := by
  cases step_moves hstep with
  | transfers hclass before after =>
    cases s with
    | render | compute => cases before
    | idle e =>
      obtain ⟨hsound, hsplit⟩ := h.newPlan (c := c) (closed_of_step hstep)
      rw [step_alone (k := .render) (.inl hclass), hsound.inPass]
      have hhandles := hsound.transfer place hstep after hsplit
      rwa [Handles, contents_newPlan] at hhandles
  | opens hclass before after =>
    cases s with
    | render | compute => cases before
    | idle e =>
      obtain ⟨hsound, hsplit⟩ := h.newPlan (c := c) (closed_of_step hstep)
      obtain ⟨hsound', hcontents⟩ := hsound.beginPass hstep after hclass hsplit
      rw [contents_newPlan] at hcontents
      exact .inl ⟨_, [c], step_opens hclass, hsound', .kept, hcontents⟩
  | @inside k hclass before after =>
    have hpass : B.inPass = true := by
      rw [h.inPass, before]
      rfl
    have hstays : (B.add c).inPass = !idle s₁ := by
      rw [after]
      exact hpass
    obtain ⟨hsound, hcontents⟩ := h.quiet hstep hstays (.inl hclass) rfl rfl rfl rfl
    refine .inl ⟨B.add c, [c], ?_, hsound, .kept, hcontents⟩
    rw [step_alone (.inr hclass), newPlan_eq hpass, if_pos hpass]
  | closes hclass before after =>
    have hpass : B.inPass = true := by
      rw [h.inPass, before]
      rfl
    have hleaves : ({ B.add c with inPass := false } : Batching).inPass = !idle s₁ := by
      rw [after]
      rfl
    obtain ⟨hsound, hcontents⟩ :=
      h.quiet (k := .render) hstep hleaves (.inr hclass) rfl rfl rfl rfl
    refine .inl ⟨_, [c], ?_, hsound, .kept, hcontents⟩
    rw [step_closes hclass, newPlan_eq hpass]

/-- The loop of `split`. -/
theorem foldlM_sound (place : Placement) (h : B.Sound T budget s)
    (hfold : owned.foldlM (Replay.step T grantAll) s = .ok s₁) :
    (∃ B' groups, owned.foldlM (Batching.step T place budget) B = .ok B' ∧ B'.Sound T budget s₁ ∧
      List.Forall₂ (Replaces T) owned groups ∧ B'.contents = B.contents ++ groups.flatten) ∨
    (owned.foldlM (Batching.step T place budget) B = .error .invalidValue ∧
      ∃ c ∈ owned, TooWide T budget c) := by
  induction owned generalizing B s with
  | nil =>
    cases hfold
    exact .inl ⟨B, [], rfl, h, .nil, (List.append_nil _).symm⟩
  | cons c rest ih =>
    rw [List.foldlM_cons] at hfold
    obtain ⟨mid, hstep, hrest⟩ := except_bind_eq_ok.mp hfold
    rw [List.foldlM_cons]
    rcases step_sound place h hstep with
      ⟨B₁, group, hB₁, hsound, hreplaces, hcontents⟩ | ⟨herror, hwide⟩
    · rcases ih hsound hrest with
        ⟨B', groups, hB', hsound', hgroups, hcontents'⟩ | ⟨herror, c', hc', hwide⟩
      · refine .inl ⟨B', group :: groups, except_bind_eq_ok.mpr ⟨B₁, hB₁, hB'⟩, hsound',
          .cons hreplaces hgroups, ?_⟩
        rw [hcontents', hcontents, List.flatten_cons, List.append_assoc]
      · exact .inr ⟨except_bind_eq_error.mpr (.inr ⟨B₁, hB₁, herror⟩), c',
          List.mem_cons_of_mem c hc', hwide⟩
    · exact .inr ⟨except_bind_eq_error.mpr (.inl herror), c, List.mem_cons_self, hwide⟩

theorem all_flatten : B.all.flatten = B.contents := by
  unfold all
  split
  · rw [List.flatten_append, List.flatten_singleton, contents]
  · rename_i hempty
    rw [contents, not_not.mp hempty, List.append_nil]

/-- At the end all batches are complete. -/
theorem Sound.all (h : B.Sound T budget (.idle e)) (hclosed : e.passOpen = false) :
    ∀ batch ∈ B.all, Complete T budget batch ∧ batch ≠ [] := by
  unfold Batching.all
  split
  · rename_i hbatch
    exact (h.cut hclosed hbatch hclosed).complete
  · exact h.complete

end Batching

end

/-- The batches of a valid recording replace its commands one for one in order, by themselves or by
uploads of their rows that write the same texels.  Each batch has complete passes, uploads no more
than the budget and is one draw plan; none is empty, except that an empty recording is one batch.
The only error is a row that is larger than the budget. -/
theorem split_sound (T : ResourceTable) (place : Placement) (owned : List OwnedCommand)
    (budget : Nat) (hbudget : 0 < budget) (hvalid : validate T grantAll owned = .ok ()) :
    (∃ batches, split T place owned budget = .ok batches ∧ Batched T budget owned batches) ∨
      (split T place owned budget = .error .invalidValue ∧ ∃ c ∈ owned, TooWide T budget c) := by
  have hpositive : failIf (budget = 0) Error.invalidValue = .ok () :=
    failIf_eq_ok.mpr (Nat.ne_of_gt hbudget)
  cases hneeds : needsBatches owned budget with
  | false =>
    -- The recording is its own batch.
    obtain ⟨hwithin, hordered⟩ := needsBatches_eq_false hneeds
    refine .inl ⟨[owned], ?_, ⟨owned.map fun c => [c], ?_, ?_⟩, ?_, ?_⟩
    · rw [split, hpositive, hvalid, hneeds]
      rfl
    · exact List.forall₂_map_right_iff.mpr (List.forall₂_same.mpr fun c _ => .kept)
    · rw [List.flatten_singleton]
      exact (List.flatMap_singleton' owned).symm
    · intro batch hbatch
      obtain rfl := List.mem_singleton.mp hbatch
      exact ⟨hvalid, nested_of_validate hvalid, hwithin, hordered⟩
    · intro hnonempty batch hbatch
      obtain rfl := List.mem_singleton.mp hbatch
      exact hnonempty
  | true =>
    obtain ⟨e, hreplay, hclosed⟩ := replay_of_validate hvalid
    have hsplit : split T place owned budget =
        owned.foldlM (Batching.step T place budget) .empty >>= fun B =>
          forEach B.all (validate T grantAll) >>= fun _ => pure B.all := by
      rw [split, hpositive, hvalid, hneeds]
      rfl
    rw [hsplit]
    rcases Batching.foldlM_sound place (.empty : Batching.empty.Sound T budget _) hreplay with
      ⟨B, groups, hfold, hsound, hgroups, hcontents⟩ | ⟨herror, hwide⟩
    · have hall := hsound.all hclosed
      refine .inl ⟨B.all, ?_, ⟨groups, hgroups, ?_⟩, fun batch hbatch => (hall batch hbatch).1,
        fun _ batch hbatch => (hall batch hbatch).2⟩
      · refine except_bind_eq_ok.mpr ⟨B, hfold, except_bind_eq_ok.mpr ⟨(), ?_, rfl⟩⟩
        exact forEach_eq_ok.mpr fun batch hbatch => (hall batch hbatch).1.accepted
      · rw [Batching.all_flatten, hcontents]
        rfl
    · exact .inr ⟨except_bind_eq_error.mpr (.inl herror), hwide⟩

/-! ## Two rows in two batches -/

/-- A texture of two rows of one texel. -/
def twoRows : TextureDesc where
  format := .rgba8Unorm
  extent := ⟨1, 2, by decide, by decide⟩
  usage := .COPY_DST
  mipLevelCount := 1
  arrayLayerCount := 1
  cubeCompatible := false
  dimension1d := false
  valid := by decide

theorem firstTable_ne : (1 : UInt64) ≠ 0 := by decide

def twoRowsTable : ResourceTable :=
  (ResourceTable.defineTexture true twoRows (.new 1 firstTable_ne)).2

def uploadTwoRows : OwnedCommand :=
  .writeTexture ⟨1, 0, 0⟩ ⟨0, 0, 1, 2, by decide⟩ 4
    ⟨[1, 2, 3, 4, 5, 6, 7, 8], 16, by decide, by decide⟩

def sameAddress : Placement := fun _ => ⟨32, by decide⟩

theorem split_sound_twoRows :
    (∃ batches, split twoRowsTable sameAddress [uploadTwoRows] 4 = .ok batches ∧
      Batched twoRowsTable 4 [uploadTwoRows] batches) ∨
    (split twoRowsTable sameAddress [uploadTwoRows] 4 = .error .invalidValue ∧
      ∃ c ∈ [uploadTwoRows], TooWide twoRowsTable 4 c) :=
  split_sound twoRowsTable sameAddress [uploadTwoRows] 4 (by decide) (by decide)

/-- A recording of no commands is returned as one batch of no commands. -/
theorem split_empty_recording :
    validate (.new 1 firstTable_ne) grantAll [] = .ok () ∧
      ∃ batches, split (.new 1 firstTable_ne) sameAddress [] 1 = .ok batches ∧
        ¬ ∀ batch ∈ batches, batch ≠ [] :=
  ⟨rfl, [[]], rfl, fun h => h [] List.mem_cons_self rfl⟩

end Sgfx.Vulkan
