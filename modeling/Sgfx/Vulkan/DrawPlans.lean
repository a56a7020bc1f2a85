import Sgfx.Vulkan.UploadBatches

/-!
# Draw plans

What one batch of a recording may hold: no more upload bytes than the budget, and passes and buffer
writes that one draw plan can run.

## Main Definitions

* `uploadTotal`, `PlanOrdered`
* `PlanBoundary.Shows` — the flags of a plan tell what its batch holds

## Main Results

* `needsBatches_eq_false` — a recording that is one batch
-/

namespace Sgfx.Vulkan

/-- The bytes that some commands upload to textures. -/
def uploadTotal : List OwnedCommand → Nat
  | [] => 0
  | c :: rest => textureBytes c + uploadTotal rest

/-- No buffer write, buffer copy or compute pass is behind a render pass, and no render pass behind
a compute pass. -/
def PlanOrdered (batch : List OwnedCommand) : Prop :=
  batch.Pairwise fun c c' =>
    (beginsRender c = true → writesBuffer c' = false ∧ beginsCompute c' = false) ∧
      (beginsCompute c = true → beginsRender c' = false)

section

variable {budget bytes : Nat} {plan : PlanBoundary} {c : OwnedCommand}
  {batch rest : List OwnedCommand}

theorem uploadTotal_append : uploadTotal (batch ++ rest) = uploadTotal batch + uploadTotal rest := by
  induction batch with
  | nil => rw [List.nil_append, uploadTotal, Nat.zero_add]
  | cons c batch ih => rw [List.cons_append, uploadTotal, ih, uploadTotal, Nat.add_assoc]

theorem uploadTotal_snoc : uploadTotal (batch ++ [c]) = uploadTotal batch + textureBytes c := by
  rw [uploadTotal_append, uploadTotal, uploadTotal, Nat.add_zero]

namespace PlanBoundary

/-- The flags of the plan tell which passes the batch begins. -/
structure Shows (plan : PlanBoundary) (batch : List OwnedCommand) : Prop where
  rendered : plan.rendered = batch.any beginsRender
  computed : plan.computed = batch.any beginsCompute

theorem shows_empty : empty.Shows [] := ⟨rfl, rfl⟩

theorem Shows.record (h : plan.Shows batch) : (plan.record c).Shows (batch ++ [c]) := by
  constructor
  · rw [List.any_append, ← h.rendered, PlanBoundary.record]
    cases c <;> simp [beginsRender, beginsCompute]
  · rw [List.any_append, ← h.computed, PlanBoundary.record]
    cases c <;> simp [beginsRender, beginsCompute]

/-- A batch that the plan must not continue is not empty. -/
theorem Shows.ne_nil (h : plan.Shows batch) (hsplit : plan.requiresSplit c = true) :
    batch ≠ [] := by
  rintro rfl
  have hrendered : plan.rendered = false := h.rendered
  have hcomputed : plan.computed = false := h.computed
  rw [requiresSplit, hrendered, hcomputed, ite_self, ite_self] at hsplit
  cases hsplit

end PlanBoundary

theorem PlanOrdered.nil : PlanOrdered [] := List.Pairwise.nil

/-- A command that needs no new plan continues the batch. -/
theorem PlanOrdered.snoc (h : PlanOrdered batch) (hshows : plan.Shows batch)
    (hsplit : plan.requiresSplit c = false) : PlanOrdered (batch ++ [c]) := by
  refine List.pairwise_append.mpr ⟨h, List.pairwise_singleton _ _, fun c₀ hc₀ c' hc' => ?_⟩
  obtain rfl := List.mem_singleton.mp hc'
  constructor
  · intro hrender
    have hrendered : plan.rendered = true := hshows.rendered ▸ List.any_eq_true.mpr ⟨c₀, hc₀, hrender⟩
    rw [PlanBoundary.requiresSplit, hrendered] at hsplit
    split at hsplit
    · cases hsplit
    · rename_i hneither
      rw [Bool.or_eq_true, not_or, Bool.not_eq_true, Bool.not_eq_true] at hneither
      exact hneither
  · intro hcompute
    have hcomputed : plan.computed = true :=
      hshows.computed ▸ List.any_eq_true.mpr ⟨c₀, hc₀, hcompute⟩
    by_contra hbegins
    rw [Bool.not_eq_false] at hbegins
    have hother : (writesBuffer c' || beginsCompute c') = false := by
      cases c' with
      | beginRenderPass | beginRenderPassWithAttachments => rfl
      | _ => cases hbegins
    rw [PlanBoundary.requiresSplit, hother, if_neg Bool.false_ne_true, if_pos hbegins,
      hcomputed] at hsplit
    cases hsplit

/-- The loop of `needs_batches` lets a recording pass that fits one batch. -/
theorem needsBatchesFrom_eq_false (hshows : plan.Shows batch) (hordered : PlanOrdered batch)
    (hbytes : bytes = uploadTotal batch) (hbudget : bytes ≤ budget)
    (h : needsBatchesFrom budget plan bytes rest = false) :
    uploadTotal (batch ++ rest) ≤ budget ∧ PlanOrdered (batch ++ rest) := by
  induction rest generalizing plan batch bytes with
  | nil =>
    rw [List.append_nil, ← hbytes]
    exact ⟨hbudget, hordered⟩
  | cons c rest ih =>
    rw [needsBatchesFrom, Bool.or_eq_false_iff, Bool.or_eq_false_iff, decide_eq_false_iff_not,
      Nat.not_lt] at h
    obtain ⟨⟨hsplit, hroom⟩, hrest⟩ := h
    have hnext := ih hshows.record (hordered.snoc hshows hsplit)
      (by rw [uploadTotal_snoc, hbytes]) hroom hrest
    rwa [List.append_assoc] at hnext

/-- A recording that needs no batches is one. -/
theorem needsBatches_eq_false (h : needsBatches rest budget = false) :
    uploadTotal rest ≤ budget ∧ PlanOrdered rest :=
  needsBatchesFrom_eq_false PlanBoundary.shows_empty .nil rfl (Nat.zero_le budget) h

end

end Sgfx.Vulkan
