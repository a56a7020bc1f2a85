import Mathlib.Algebra.Group.Nat.Defs
import Mathlib.Tactic.Common

/-!
# What a history says at its end

A history grows at its end, and most questions asked of it are of two kinds: has
something happened that nothing has undone since, and did every event fit the
history before it?  Both have an equation for a history with one more event, which
is all an induction over a run needs.

## Main Definitions

* `Since trigger reset history` — a trigger, and no reset after it
* `Along P history` — every event satisfies `P` with the history before it
* `AlongFrom P before rest` — the same of a continuation

## Main Results

* `since_snoc`, `along_snoc` — one more event
* `Along.between` — an event that must not follow an unreset trigger is
  separated from every earlier trigger by a reset
-/

namespace Sgfx

variable {E : Type}

/-- A split of a history with one more event ends in that event, or splits the
history before it. -/
theorem snoc_eq_append_cons {history before after : List E} {e x : E} :
    history ++ [e] = before ++ x :: after ↔
      (before = history ∧ x = e ∧ after = []) ∨
        ∃ shorter, after = shorter ++ [e] ∧ history = before ++ x :: shorter := by
  constructor
  · intro h
    rcases List.eq_nil_or_concat after with rfl | ⟨shorter, last, rfl⟩
    · obtain ⟨hbefore, hlast⟩ := List.append_inj' h rfl
      exact .inl ⟨hbefore.symm, (List.singleton_inj.mp hlast).symm, rfl⟩
    · rw [List.concat_eq_append, ← List.cons_append, ← List.append_assoc] at h
      obtain ⟨hbefore, hlast⟩ := List.append_inj' h rfl
      rw [List.singleton_inj.mp hlast]
      exact .inr ⟨shorter, List.concat_eq_append, hbefore⟩
  · rintro (⟨rfl, rfl, rfl⟩ | ⟨shorter, rfl, rfl⟩)
    · rfl
    · simp

/-! ### Triggers and resets -/

/-- Some event triggered, and no event after it has reset. -/
def Since (trigger reset : E → Prop) (history : List E) : Prop :=
  ∃ before e after, history = before ++ e :: after ∧ trigger e ∧ ∀ f ∈ after, ¬ reset f

variable {trigger reset : E → Prop}

@[simp] theorem since_nil : ¬ Since trigger reset [] := by
  rintro ⟨before, e, after, h, -, -⟩
  simp at h

/-- After one more event: it triggered, or the trigger is older and it did not
reset. -/
theorem since_snoc {history : List E} {e : E} :
    Since trigger reset (history ++ [e]) ↔
      trigger e ∨ (Since trigger reset history ∧ ¬ reset e) := by
  constructor
  · rintro ⟨before, x, after, h, hx, hafter⟩
    rcases snoc_eq_append_cons.mp h with ⟨-, rfl, -⟩ | ⟨shorter, rfl, rfl⟩
    · exact .inl hx
    · exact .inr ⟨⟨before, x, shorter, rfl, hx, fun f hf => hafter f (by simp [hf])⟩,
        hafter e (by simp)⟩
  · rintro (he | ⟨⟨before, x, after, rfl, hx, hafter⟩, he⟩)
    · exact ⟨history, e, [], rfl, he, by simp⟩
    · refine ⟨before, x, after ++ [e], by simp, hx, fun f hf => ?_⟩
      rcases List.mem_append.mp hf with hf | hf
      · exact hafter f hf
      · rwa [List.mem_singleton.mp hf]

/-- A history that ends in a reset. -/
theorem not_since_of_getLast {history : List E} {e : E} (last : history.getLast? = some e)
    (silent : ¬ trigger e) (resets : reset e) : ¬ Since trigger reset history := by
  obtain ⟨past, rfl⟩ := List.getLast?_eq_some_iff.mp last
  rw [since_snoc]
  rintro (he | ⟨-, hreset⟩)
  · exact silent he
  · exact hreset resets

/-- A trigger at a position after which nothing resets. -/
theorem Since.of_getElem {history : List E} {e : E} (i : ℕ) (at_i : history[i]? = some e)
    (he : trigger e) (hafter : ∀ m ∈ history.drop (i + 1), ¬ reset m) :
    Since trigger reset history := by
  obtain ⟨hi, rfl⟩ := List.getElem?_eq_some_iff.mp at_i
  refine ⟨history.take i, history[i], history.drop (i + 1), ?_, he, hafter⟩
  rw [← List.drop_eq_getElem_cons hi, List.take_append_drop]

/-! ### Events against the history before them -/

/-- Every event satisfies `P` with the history before it. -/
def Along (P : List E → E → Prop) (history : List E) : Prop :=
  ∀ before e after, history = before ++ e :: after → P before e

variable {P Q : List E → E → Prop}

@[simp] theorem along_nil : Along P [] := by
  intro before e after h
  simp at h

theorem along_snoc {history : List E} {e : E} :
    Along P (history ++ [e]) ↔ Along P history ∧ P history e := by
  constructor
  · intro h
    exact ⟨fun before x after hsplit => h before x (after ++ [e]) (by simp [hsplit]),
      h history e [] rfl⟩
  · rintro ⟨htrace, he⟩ before x after hsplit
    rcases snoc_eq_append_cons.mp hsplit with ⟨rfl, rfl, -⟩ | ⟨shorter, -, rfl⟩
    · exact he
    · exact htrace before x shorter rfl

/-- Every event of a continuation satisfies `P` with all that came before it. -/
def AlongFrom (P : List E → E → Prop) : List E → List E → Prop
  | _, [] => True
  | before, e :: rest => P before e ∧ AlongFrom P (before ++ [e]) rest

/-- A history and its continuation. -/
theorem along_append {before rest : List E} :
    Along P (before ++ rest) ↔ Along P before ∧ AlongFrom P before rest := by
  induction rest generalizing before with
  | nil => simp [AlongFrom]
  | cons e rest ih =>
    have happend : before ++ e :: rest = (before ++ [e]) ++ rest := by simp
    rw [happend, ih, along_snoc, AlongFrom, and_assoc]

/-- A whole history is the continuation of the empty one. -/
theorem along_iff_alongFrom {history : List E} : Along P history ↔ AlongFrom P [] history := by
  have h := @along_append E P [] history
  simpa using h

/-- An event at a position, with the history before that position. -/
theorem Along.getElem {history : List E} {f : E} (h : Along P history) (j : ℕ)
    (at_j : history[j]? = some f) : P (history.take j) f := by
  obtain ⟨hj, rfl⟩ := List.getElem?_eq_some_iff.mp at_j
  refine h _ _ (history.drop (j + 1)) ?_
  rw [← List.drop_eq_getElem_cons hj, List.take_append_drop]

/-- If no event that `forbidden` marks follows an unreset trigger, then a reset
stands between every trigger and every later marked event. -/
theorem Along.between {forbidden : E → Prop} {history : List E} {i j : ℕ} {e f : E}
    (h : Along (fun past x => forbidden x → ¬ Since trigger reset past) history)
    (first : history[i]? = some e) (second : history[j]? = some f) (earlier : i < j)
    (he : trigger e) (hf : forbidden f) :
    ∃ k m, i < k ∧ k < j ∧ history[k]? = some m ∧ reset m := by
  by_contra hnone
  push Not at hnone
  have past : (history.take j)[i]? = some e := by
    rw [List.getElem?_take_of_lt earlier]
    exact first
  refine h.getElem j second hf (.of_getElem i past he fun m hm => ?_)
  obtain ⟨k, hk, rfl⟩ := List.mem_iff_getElem.mp hm
  rw [List.length_drop, List.length_take] at hk
  refine hnone (i + 1 + k) _ (by omega) (by omega) ?_
  rw [List.getElem_drop, List.getElem_take]
  exact List.getElem?_eq_getElem (by omega)

end Sgfx
