import Mathlib

/-!
# Tilings

A row of nonempty sets tiles a region when no two of them meet and the region is what they
have together.  Tilings of two regions that do not meet are put side by side
(`Tiles.append`), and a product region is cut between two columns or two rows.

## Main Definitions

* `Tiles`

## Main Results

* `Tiles.append`, `Tiles.single`, `Tiles.columns`, `Tiles.rows`
-/

namespace Sgfx

variable {α β : Type*}

/-- Nonempty tiles that do not overlap and are the region together. -/
structure Tiles (tiles : List (Set α)) (region : Set α) : Prop where
  nonempty : ∀ tile ∈ tiles, tile.Nonempty
  disjoint : tiles.Pairwise Disjoint
  covers : ∀ x, x ∈ region ↔ ∃ tile ∈ tiles, x ∈ tile

namespace Tiles

variable {tiles more : List (Set α)} {tile region region' : Set α}

theorem subset (h : Tiles tiles region) (member : tile ∈ tiles) : tile ⊆ region :=
  fun x hx => (h.covers x).mpr ⟨tile, member, hx⟩

theorem nil : Tiles ([] : List (Set α)) ∅ where
  nonempty := by simp
  disjoint := .nil
  covers := by simp

theorem single (h : tile.Nonempty) : Tiles [tile] tile where
  nonempty := by simpa
  disjoint := List.pairwise_singleton ..
  covers := by simp

/-- Two regions that do not meet are tiled one after the other. -/
theorem append (first : Tiles tiles region) (second : Tiles more region')
    (apart : Disjoint region region') : Tiles (tiles ++ more) (region ∪ region') where
  nonempty t ht := (List.mem_append.mp ht).elim (first.nonempty t) (second.nonempty t)
  disjoint := List.pairwise_append.mpr ⟨first.disjoint, second.disjoint, fun _ hs _ ht =>
    apart.mono (first.subset hs) (second.subset ht)⟩
  covers x := by
    rw [Set.mem_union, first.covers, second.covers]
    simp only [List.mem_append, or_and_right, exists_or]

section Cuts

variable [LinearOrder α] {a b c : α}

/-- Cut between two columns. -/
theorem columns {tiles more : List (Set (α × β))} {s : Set β} (hab : a ≤ b) (hbc : b ≤ c)
    (left : Tiles tiles (Set.Ico a b ×ˢ s)) (right : Tiles more (Set.Ico b c ×ˢ s)) :
    Tiles (tiles ++ more) (Set.Ico a c ×ˢ s) := by
  rw [← Set.Ico_union_Ico_eq_Ico hab hbc, Set.union_prod]
  refine left.append right (Set.disjoint_left.mpr ?_)
  rintro ⟨x, y⟩ hleft hright
  exact absurd hleft.1.2 (not_lt.mpr hright.1.1)

/-- Cut between two rows. -/
theorem rows {tiles more : List (Set (β × α))} {s : Set β} (hab : a ≤ b) (hbc : b ≤ c)
    (above : Tiles tiles (s ×ˢ Set.Ico a b)) (below : Tiles more (s ×ˢ Set.Ico b c)) :
    Tiles (tiles ++ more) (s ×ˢ Set.Ico a c) := by
  rw [← Set.Ico_union_Ico_eq_Ico hab hbc, Set.prod_union]
  refine above.append below (Set.disjoint_left.mpr ?_)
  rintro ⟨x, y⟩ habove hbelow
  exact absurd habove.2.2 (not_lt.mpr hbelow.2.1)

end Cuts

end Tiles

end Sgfx
