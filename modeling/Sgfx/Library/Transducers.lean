import Mathlib.Data.List.Flatten
import Mathlib.Data.List.Forall2
import Sgfx.Library.Fallible

/-!
# Transducers

A pass over a list that carries a state, writes something for every item and may stop with an error.
What it writes is related to the list item by item, and names that it takes from a supply are new.

## Main Definitions

* `transduce` — the pass
* `Supplied` — the names in what is written: those of the items, and new ones

## Main Results

* `transduce_invariant`, `transduce_forall₂` — the loop rules
* `transduce_supplied`, `Supplied.nodup` — no name is written twice
-/

namespace Sgfx

variable {σ ε α β γ ι : Type}

/-- The turns over a list, each with the state that the one before left. -/
def transduce (turn : σ → α → Except ε (β × σ)) : σ → List α → Except ε (List β × σ)
  | s, [] => .ok ([], s)
  | s, a :: rest => do
    let (b, s') ← turn s a
    let (later, t) ← transduce turn s' rest
    pure (b :: later, t)

section Rules

variable {turn : σ → α → Except ε (β × σ)} {s t : σ} {code : List α} {written : List β}

theorem transduce_nil_eq_ok : transduce turn s [] = .ok (written, t) ↔ written = [] ∧ t = s := by
  rw [transduce, Except.ok.injEq, Prod.mk.injEq, eq_comm, @eq_comm _ s]

theorem transduce_cons_eq_ok {a : α} :
    transduce turn s (a :: code) = .ok (written, t) ↔
      ∃ b s' later, turn s a = .ok (b, s') ∧ transduce turn s' code = .ok (later, t) ∧
        written = b :: later := by
  rw [transduce, except_bind_eq_ok]
  constructor
  · rintro ⟨⟨b, s'⟩, first, h⟩
    obtain ⟨⟨later, t'⟩, rest, h⟩ := except_bind_eq_ok.mp h
    cases h
    exact ⟨b, s', later, first, rest, rfl⟩
  · rintro ⟨b, s', later, first, rest, rfl⟩
    exact ⟨(b, s'), first, except_bind_eq_ok.mpr ⟨(later, t), rest, rfl⟩⟩

/-- The loop rule: a relation between the items that are done, what is written for them, and the
state, which each turn carries on. -/
theorem transduce_invariant (h : transduce turn s code = .ok (written, t))
    (I : List α → List β → σ → Prop) (start : I [] [] s)
    (step : ∀ done a rest bs s b s', code = done ++ a :: rest → I done bs s →
      turn s a = .ok (b, s') → I (done ++ [a]) (bs ++ [b]) s') : I code written t := by
  suffices general : ∀ (rest done : List α) (bs later : List β) (s : σ), code = done ++ rest →
      I done bs s → transduce turn s rest = .ok (later, t) → I (done ++ rest) (bs ++ later) t from
    general code [] [] written s rfl start h
  intro rest
  induction rest with
  | nil =>
    intro done bs later s _ now h
    obtain ⟨rfl, rfl⟩ := transduce_nil_eq_ok.mp h
    rwa [List.append_nil, List.append_nil]
  | cons a rest ih =>
    intro done bs later s whole now h
    obtain ⟨b, s', later, first, rest, rfl⟩ := transduce_cons_eq_ok.mp h
    have next := ih (done ++ [a]) (bs ++ [b]) later s'
      (by rw [whole, List.append_assoc, List.singleton_append])
      (step done a _ bs s b s' whole now first) rest
    rwa [List.append_assoc, List.append_assoc, List.singleton_append, List.singleton_append] at next

/-- One more pair of related items. -/
theorem forall₂_append_singleton {R : α → β → Prop} {as : List α} {bs : List β} {a : α} {b : β}
    (before : List.Forall₂ R as bs) (last : R a b) : List.Forall₂ R (as ++ [a]) (bs ++ [b]) :=
  List.rel_append before (List.Forall₂.cons last List.Forall₂.nil)

/-- The loop rule for a relation between an item and what is written for it. -/
theorem transduce_forall₂ (h : transduce turn s code = .ok (written, t)) (J : List α → σ → Prop)
    (R : α → β → Prop) (start : J [] s)
    (step : ∀ done a rest s b s', code = done ++ a :: rest → J done s → turn s a = .ok (b, s') →
      J (done ++ [a]) s' ∧ R a b) : List.Forall₂ R code written ∧ J code t := by
  refine transduce_invariant h (fun done bs s => List.Forall₂ R done bs ∧ J done s)
    ⟨.nil, start⟩ ?_
  rintro done a rest bs s b s' whole ⟨related, now⟩ first
  obtain ⟨next, last⟩ := step done a rest s b s' whole now first
  exact ⟨forall₂_append_singleton related last, next⟩

/-- The loop rule for the state alone. -/
theorem transduce_state (h : transduce turn s code = .ok (written, t)) (J : List α → σ → Prop)
    (start : J [] s)
    (step : ∀ done a rest s b s', code = done ++ a :: rest → J done s → turn s a = .ok (b, s') →
      J (done ++ [a]) s') : J code t :=
  (transduce_forall₂ h J (fun _ _ => True) start fun done a rest s b s' whole now first =>
    ⟨step done a rest s b s' whole now first, trivial⟩).2

/-- A pass whose state does not change. -/
theorem transduce_same {f : α → β} (each : ∀ a ∈ code, turn s a = .ok (f a, s)) :
    transduce turn s code = .ok (code.map f, s) := by
  induction code with
  | nil => rfl
  | cons a rest ih =>
    have later := ih fun b member => each b (List.mem_cons_of_mem _ member)
    exact transduce_cons_eq_ok.mpr
      ⟨f a, s, rest.map f, each a List.mem_cons_self, later, List.map_cons⟩

end Rules

/-- An item and what is written for it. -/
theorem forall₂_mem_left {R : α → β → Prop} {as : List α} {bs : List β} {a : α}
    (related : List.Forall₂ R as bs) (member : a ∈ as) : ∃ b ∈ bs, R a b := by
  induction related with
  | nil => cases member
  | cons first _ ih =>
    rcases List.mem_cons.mp member with rfl | member
    · exact ⟨_, List.mem_cons_self, first⟩
    · obtain ⟨b, hb, h⟩ := ih member
      exact ⟨b, List.mem_cons_of_mem _ hb, h⟩

theorem forall₂_mem_right {R : α → β → Prop} {as : List α} {bs : List β} {b : β}
    (related : List.Forall₂ R as bs) (member : b ∈ bs) : ∃ a ∈ as, R a b := by
  obtain ⟨a, ha, h⟩ := forall₂_mem_left related.flip member
  exact ⟨a, ha, h⟩

/-! ## Names -/

section Supplied

variable {num : ι → ℕ} {names : α → List ι} {written : β → List ι}

/-- Names are numbered.  What is written for an item has names of the item and names from the
supply, which starts and ends with the given numbers. -/
inductive Supplied (num : ι → ℕ) (names : α → List ι) (written : β → List ι) :
    ℕ → List α → List β → ℕ → Prop
  | nil (n : ℕ) : Supplied num names written n [] [] n
  | cons {n m k : ℕ} {a : α} {b : β} {as : List α} {bs : List β} (le : n ≤ m)
      (nodup : (written b).Nodup)
      (mem : ∀ r ∈ written b, r ∈ names a ∨ (n ≤ num r ∧ num r < m))
      (rest : Supplied num names written m as bs k) :
      Supplied num names written n (a :: as) (b :: bs) k

theorem Supplied.le {n k : ℕ} {as : List α} {bs : List β}
    (h : Supplied num names written n as bs k) : n ≤ k := by
  induction h with
  | nil n => exact Nat.le_refl n
  | cons le _ _ _ ih => exact Nat.le_trans le ih

/-- Every name that is written is one of an item, or new. -/
theorem Supplied.mem {n k : ℕ} {as : List α} {bs : List β}
    (h : Supplied num names written n as bs k) :
    ∀ r ∈ bs.flatMap written, r ∈ as.flatMap names ∨ (n ≤ num r ∧ num r < k) := by
  induction h with
  | nil n =>
    intro r member
    cases member
  | cons le nodup mem rest ih =>
    intro r member
    rw [List.flatMap_cons, List.mem_append] at member ⊢
    have last := rest.le
    rcases member with here | later
    · rcases mem r here with old | new
      · exact .inl (.inl old)
      · exact .inr ⟨new.1, by omega⟩
    · rcases ih r later with old | new
      · exact .inl (.inr old)
      · exact .inr ⟨by omega, new.2⟩

/-- No name is written twice, if none of the items has one twice or one from the supply. -/
theorem Supplied.nodup {n k : ℕ} {as : List α} {bs : List β}
    (h : Supplied num names written n as bs k) (distinct : (as.flatMap names).Nodup)
    (old : ∀ r ∈ as.flatMap names, num r < n) : (bs.flatMap written).Nodup := by
  induction h with
  | nil n => exact List.nodup_nil
  | cons le nodup mem rest ih =>
    rw [List.flatMap_cons, List.nodup_append] at distinct
    obtain ⟨_, distinct, apart⟩ := distinct
    rw [List.flatMap_cons, List.nodup_append]
    have later : ∀ r ∈ List.flatMap names _, num r < _ := fun r member => Nat.lt_of_lt_of_le
      (old r (by rw [List.flatMap_cons, List.mem_append]; exact .inr member)) le
    refine ⟨nodup, ih distinct later, ?_⟩
    rintro r here r' there rfl
    rcases mem r here with mine | new
    · have small : num r < _ := old r (by
        rw [List.flatMap_cons, List.mem_append]
        exact .inl mine)
      rcases rest.mem r there with theirs | newer
      · exact apart r mine r theirs rfl
      · omega
    · rcases rest.mem r there with theirs | newer
      · have small : num r < _ := old r (by
          rw [List.flatMap_cons, List.mem_append]
          exact .inr theirs)
        omega
      · omega

/-- The loop rule for names: the state has the number of the next one, and satisfies an invariant. -/
theorem transduce_supplied_of {turn : σ → α → Except ε (β × σ)} {s t : σ}
    {code : List α} {bs : List β} (h : transduce turn s code = .ok (bs, t)) (next : σ → ℕ)
    (J : List α → σ → Prop) (start : J [] s)
    (each : ∀ done a rest s₁ b s₂, code = done ++ a :: rest → J done s₁ → turn s₁ a = .ok (b, s₂) →
      J (done ++ [a]) s₂ ∧ next s₁ ≤ next s₂ ∧ (written b).Nodup ∧
        ∀ r ∈ written b, r ∈ names a ∨ (next s₁ ≤ num r ∧ num r < next s₂)) :
    Supplied num names written (next s) code bs (next t) := by
  suffices general : ∀ (rest done : List α) (bs : List β) (s : σ), code = done ++ rest → J done s →
      transduce turn s rest = .ok (bs, t) →
      Supplied num names written (next s) rest bs (next t) from general code [] bs s rfl start h
  intro rest
  induction rest with
  | nil =>
    intro done bs s _ _ h
    obtain ⟨rfl, rfl⟩ := transduce_nil_eq_ok.mp h
    exact .nil _
  | cons a rest ih =>
    intro done bs s whole now h
    obtain ⟨b, s', later, first, following, rfl⟩ := transduce_cons_eq_ok.mp h
    obtain ⟨after, le, nodup, mem⟩ := each done a rest s b s' whole now first
    exact .cons le nodup mem (ih (done ++ [a]) later s'
      (by rw [whole, List.append_assoc, List.singleton_append]) after following)

/-- The loop rule for names alone. -/
theorem transduce_supplied {turn : σ → α → Except ε (β × σ)} {s t : σ}
    {code : List α} {bs : List β} (h : transduce turn s code = .ok (bs, t)) (next : σ → ℕ)
    (each : ∀ a ∈ code, ∀ s₁ b s₂, next s ≤ next s₁ → turn s₁ a = .ok (b, s₂) →
      next s₁ ≤ next s₂ ∧ (written b).Nodup ∧
        ∀ r ∈ written b, r ∈ names a ∨ (next s₁ ≤ num r ∧ num r < next s₂)) :
    Supplied num names written (next s) code bs (next t) := by
  refine transduce_supplied_of h next (fun _ s₁ => next s ≤ next s₁) (Nat.le_refl _) ?_
  intro done a rest s₁ b s₂ whole above turned
  obtain ⟨le, new⟩ := each a (whole ▸ List.mem_append_right _ List.mem_cons_self) s₁ b s₂ above turned
  exact ⟨Nat.le_trans above le, le, new⟩

end Supplied

end Sgfx
