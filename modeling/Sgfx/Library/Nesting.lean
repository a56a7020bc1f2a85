import Mathlib.Tactic.Common

/-!
# Blocks that do not overlap

A sequence of items is nested if it consists of single items and of blocks: an item that opens a
block of some kind, items that belong inside such a block, and an item that closes it.  A sequence
that is read from its start is at every point either nested or inside a block.

## Main Definitions

* `Grammar`, `Grammar.Nested`, `Grammar.Within`
-/

namespace Sgfx

/-- Which items stand alone, and which open, fill and close a block of some kind. -/
structure Grammar (α κ : Type) where
  outside : α → Bool
  opens : α → Option κ
  inside : κ → α → Bool
  closes : α → Option κ

namespace Grammar

variable {α κ : Type} {G : Grammar α κ} {k : κ} {a : α} {items items' : List α}

/-- Single items and complete blocks. -/
inductive Nested (G : Grammar α κ) : List α → Prop
  | nil : Nested G []
  | single {a : α} {rest : List α} (alone : G.outside a = true) (tail : Nested G rest) :
      Nested G (a :: rest)
  | block {k : κ} {first last : α} {body rest : List α} (opens : G.opens first = some k)
      (inside : ∀ a ∈ body, G.inside k a = true) (closes : G.closes last = some k)
      (tail : Nested G rest) : Nested G (first :: (body ++ last :: rest))

/-- Nested items, and then a block of this kind that is not closed yet. -/
def Within (G : Grammar α κ) (k : κ) (items : List α) : Prop :=
  ∃ before first body, items = before ++ first :: body ∧ G.Nested before ∧
    G.opens first = some k ∧ ∀ a ∈ body, G.inside k a = true

theorem Nested.append (h : G.Nested items) (h' : G.Nested items') : G.Nested (items ++ items') := by
  induction h with
  | nil => exact h'
  | single alone tail ih => exact .single alone ih
  | block opens inside closes tail ih =>
    rw [List.cons_append, List.append_assoc, List.cons_append]
    exact .block opens inside closes ih

theorem Nested.snoc (h : G.Nested items) (alone : G.outside a = true) : G.Nested (items ++ [a]) :=
  h.append (.single alone .nil)

theorem Nested.open (h : G.Nested items) (opens : G.opens a = some k) : G.Within k (items ++ [a]) :=
  ⟨items, a, [], rfl, h, opens, fun _ hb => absurd hb List.not_mem_nil⟩

theorem Within.snoc (h : G.Within k items) (inside : G.inside k a = true) :
    G.Within k (items ++ [a]) := by
  obtain ⟨before, first, body, rfl, hbefore, opens, hbody⟩ := h
  refine ⟨before, first, body ++ [a], by rw [List.append_assoc, List.cons_append], hbefore, opens,
    fun b hb => ?_⟩
  rcases List.mem_append.mp hb with hb | hb
  · exact hbody b hb
  · rwa [List.mem_singleton.mp hb]

/-- The block is closed. -/
theorem Within.close (h : G.Within k items) (closes : G.closes a = some k) :
    G.Nested (items ++ [a]) := by
  obtain ⟨before, first, body, rfl, hbefore, opens, hbody⟩ := h
  rw [List.append_assoc, List.cons_append]
  exact hbefore.append (.block opens hbody closes .nil)

end Grammar

end Sgfx
