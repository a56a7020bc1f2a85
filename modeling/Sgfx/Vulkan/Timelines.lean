import Mathlib
import Sgfx.Library.Reservations
import Sgfx.Vulkan.Results

/-!
# Timeline semaphores

A timeline has a value, visible to waiters, and a set of values that accepted submissions will
signal.  A submission reserves its values before it is queued; the observer of its completion
completes them, and a submission that cannot be queued cancels them.  The host may signal as long as
it does not overtake a pending value.  Every operation holds the lock of the pending set, so
concurrent calls are the steps of one run, in some order.

The values are only compared, so they are natural numbers here.

## Main Definitions

* `Timeline` and its operations
* `TimelineCall`, `TimelineCall.step`, `runTimelines` — any interleaving of them
* `Timeline.Reserved` — what reserving some values in turn leaves

## Main Results

* `runTimelines_value` — a value never decreases
* `Timeline.signal_below` — an accepted host signal is below every pending value
* `Timeline.Reserved.snoc` — one more reservation
-/

namespace Sgfx.Vulkan

open Fallible

/-- `Timeline`. -/
structure Timeline where
  value : Nat
  pending : Finset Nat
deriving DecidableEq

namespace Timeline

/-- `Timeline::new`. -/
def new (value : Nat) : Timeline := ⟨value, ∅⟩

/-- `reserve`: above the value and the last pending value. -/
def reserve (value : Nat) : Fallible Timeline VkResult Unit := do
  let t ← Fallible.read
  liftM (failIf (value ≤ t.value ∨ (value : WithBot Nat) ≤ t.pending.max)
    VkResult.errorInitializationFailed)
  update fun t => { t with pending := insert value t.pending }

/-- `cancel`. -/
def cancel (value : Nat) (t : Timeline) : Timeline :=
  { t with pending := t.pending.erase value }

/-- `complete`. -/
def complete (value : Nat) (t : Timeline) : Timeline :=
  { value := max t.value value, pending := t.pending.erase value }

/-- `signal`: above the value and below the first pending value. -/
def signal (value : Nat) : Fallible Timeline VkResult Unit := do
  let t ← Fallible.read
  liftM (failIf (value ≤ t.value ∨ t.pending.min ≤ (value : WithTop Nat))
    VkResult.errorInitializationFailed)
  update fun t => { t with value := value }

variable {t t' : Timeline} {v : Nat} {u : Unit}

/-! ## Single calls -/

theorem le_max_pending : (v : WithBot Nat) ≤ t.pending.max ↔ ∃ p ∈ t.pending, v ≤ p := by
  constructor
  · intro h
    cases hmax : t.pending.max with
    | bot =>
      rw [hmax] at h
      exact absurd (le_bot_iff.mp h) (WithBot.coe_ne_bot)
    | coe p =>
      rw [hmax] at h
      exact ⟨p, Finset.mem_of_max hmax, WithBot.coe_le_coe.mp h⟩
  · rintro ⟨p, member, le⟩
    exact (WithBot.coe_le_coe.mpr le).trans (Finset.le_max member)

theorem min_pending_le : t.pending.min ≤ (v : WithTop Nat) ↔ ∃ p ∈ t.pending, p ≤ v := by
  constructor
  · intro h
    cases hmin : t.pending.min with
    | top =>
      rw [hmin] at h
      exact absurd (top_le_iff.mp h) (WithTop.coe_ne_top)
    | coe p =>
      rw [hmin] at h
      exact ⟨p, Finset.mem_of_min hmin, WithTop.coe_le_coe.mp h⟩
  · rintro ⟨p, member, le⟩
    exact (Finset.min_le member).trans (WithTop.coe_le_coe.mpr le)

/-- An accepted reservation is above everything the timeline knows. -/
theorem reserve_ok (h : reserve v t = (.ok u, t')) :
    t.value < v ∧ (∀ p ∈ t.pending, p < v) ∧
      t' = { t with pending := insert v t.pending } := by
  simp only [reserve, read_bind_run, lift_bind_eq_ok, failIf_eq_ok, not_or, not_le,
    le_max_pending] at h
  obtain ⟨-, ⟨above, last⟩, h⟩ := h
  rw [update_run, Prod.mk.injEq] at h
  exact ⟨above, fun p member => Nat.lt_of_not_le fun le => last ⟨p, member, le⟩, h.2.symm⟩

theorem reserve_atomic (v : Nat) : Atomic (reserve v) :=
  .read_bind fun _ => .lift_bind fun _ _ => .of_total (.update _)

/-- An accepted host signal is above the value and below every pending value. -/
theorem signal_ok (h : signal v t = (.ok u, t')) :
    t.value < v ∧ (∀ p ∈ t.pending, v < p) ∧ t' = { t with value := v } := by
  simp only [signal, read_bind_run, lift_bind_eq_ok, failIf_eq_ok, not_or, not_le,
    min_pending_le] at h
  obtain ⟨-, ⟨above, first⟩, h⟩ := h
  rw [update_run, Prod.mk.injEq] at h
  exact ⟨above, fun p member => Nat.lt_of_not_le fun le => first ⟨p, member, le⟩, h.2.symm⟩

theorem signal_atomic (v : Nat) : Atomic (signal v) :=
  .read_bind fun _ => .lift_bind fun _ _ => .of_total (.update _)

/-- Cancelling an accepted reservation undoes it. -/
theorem cancel_reserve (h : reserve v t = (.ok u, t')) : t'.cancel v = t := by
  obtain ⟨-, last, rfl⟩ := reserve_ok h
  have fresh : v ∉ t.pending := fun member => Nat.lt_irrefl v (last v member)
  show { t with pending := (insert v t.pending).erase v } = t
  rw [Finset.erase_insert fresh]

theorem cancel_comm (v w : Nat) (t : Timeline) : (t.cancel w).cancel v = (t.cancel v).cancel w := by
  show { t with pending := (t.pending.erase w).erase v } = _
  rw [Finset.erase_right_comm]
  rfl

/-! ## Reserving several values -/

/-- `t'` is `t` with these values reserved in turn. -/
structure Reserved (t : Timeline) (values : List Nat) (t' : Timeline) : Prop where
  value : t'.value = t.value
  pending : t'.pending = t.pending ∪ values.toFinset
  increasing : values.Pairwise (· < ·)
  aboveValue : ∀ v ∈ values, t.value < v
  abovePending : ∀ v ∈ values, ∀ p ∈ t.pending, p < v

theorem Reserved.refl (t : Timeline) : t.Reserved [] t where
  value := rfl
  pending := by rw [List.toFinset_nil, Finset.union_empty]
  increasing := .nil
  aboveValue _ member := (List.not_mem_nil member).elim
  abovePending _ member := (List.not_mem_nil member).elim

/-- One more value. -/
theorem Reserved.snoc {t'' : Timeline} {values : List Nat} (done : t.Reserved values t')
    (h : reserve v t' = (.ok u, t'')) : t.Reserved (values ++ [v]) t'' := by
  obtain ⟨above, last, rfl⟩ := reserve_ok h
  have later : ∀ w ∈ values, w < v := fun w member =>
    last w (done.pending ▸ Finset.mem_union_right _ (List.mem_toFinset.mpr member))
  have older : ∀ p ∈ t.pending, p < v := fun p member =>
    last p (done.pending ▸ Finset.mem_union_left _ member)
  refine ⟨done.value, ?_, ?_, ?_, ?_⟩
  · show insert v t'.pending = _
    rw [done.pending]
    ext p
    simp only [Finset.mem_insert, Finset.mem_union, List.mem_toFinset, List.mem_append,
      List.mem_singleton]
    tauto
  · exact List.pairwise_append.mpr ⟨done.increasing, List.pairwise_singleton _ _,
      fun w member x hx => List.mem_singleton.mp hx ▸ later w member⟩
  · intro w member
    rcases List.mem_append.mp member with member | member
    · exact done.aboveValue w member
    · exact List.mem_singleton.mp member ▸ done.value ▸ above
  · intro w member
    rcases List.mem_append.mp member with member | member
    · exact done.abovePending w member
    · exact List.mem_singleton.mp member ▸ older

end Timeline

/-! ## Runs -/

/-- The calls that threads make on a timeline. -/
inductive TimelineCall where
  | reserve (value : Nat)
  | cancel (value : Nat)
  | complete (value : Nat)
  | signal (value : Nat)

/-- The timeline after a call, accepted or not. -/
def TimelineCall.step (t : Timeline) : TimelineCall → Timeline
  | reserve value => (t.reserve value).2
  | cancel value => t.cancel value
  | complete value => t.complete value
  | signal value => (t.signal value).2

/-- The timelines after calls in the order their locks were taken. -/
def runTimelines {ι : Type} [DecidableEq ι] (timelines : ι → Timeline)
    (calls : List (ι × TimelineCall)) : ι → Timeline :=
  calls.foldl (fun timelines call =>
    Function.update timelines call.1 (call.2.step (timelines call.1))) timelines

namespace TimelineCall

theorem value_le_step (t : Timeline) (call : TimelineCall) : t.value ≤ (call.step t).value := by
  cases call with
  | reserve value =>
    rcases hrun : t.reserve value with ⟨e | u, t'⟩
    · rw [step, hrun, (Timeline.reserve_atomic value).unchanged hrun]
    · rw [step, hrun, (Timeline.reserve_ok hrun).2.2]
  | cancel value => exact Nat.le_refl _
  | complete value => exact Nat.le_max_left _ _
  | signal value =>
    rcases hrun : t.signal value with ⟨e | u, t'⟩
    · rw [step, hrun, (Timeline.signal_atomic value).unchanged hrun]
    · rw [step, hrun, (Timeline.signal_ok hrun).2.2]
      exact Nat.le_of_lt (Timeline.signal_ok hrun).1

end TimelineCall

/-- A value never decreases. -/
theorem runTimelines_value {ι : Type} [DecidableEq ι] (timelines : ι → Timeline)
    (calls : List (ι × TimelineCall)) (s : ι) :
    (timelines s).value ≤ (runTimelines timelines calls s).value := by
  induction calls generalizing timelines with
  | nil => exact Nat.le_refl _
  | cons call rest ih =>
    refine Nat.le_trans ?_ (ih (Function.update timelines call.1 (call.2.step (timelines call.1))))
    by_cases same : s = call.1
    · subst same
      rw [Function.update_self]
      exact TimelineCall.value_le_step _ _
    · rw [Function.update_of_ne same]

end Sgfx.Vulkan
