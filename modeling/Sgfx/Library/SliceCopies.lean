import Sgfx.Library.Bytes

/-!
# Copies between slices

Indexing a slice by a range and copying into a slice fail when the range is out of bounds or
the lengths differ.  Copies that meet these conditions are `Bytes.splice`.

## Main Definitions

* `indexRange` — `items[start..stop]`
* `copyFromSlice` — `items[start..stop].copy_from_slice(data)`
* `Piece`, `overwrite` — some data at an offset, and such copies one after another
* `Apart` — pieces inside an array, no two of which overlap

## Main Results

* `overwriteChecked_eq` — copies inside an array are in bounds
* `get_overwrite_piece`, `get_overwrite_outside` — what the array reads afterwards
-/

namespace Sgfx

variable {α : Type}

/-- `items[start..stop]`; nothing where that is out of bounds. -/
def indexRange (items : List α) (start stop : Nat) : Option (List α) :=
  if start ≤ stop ∧ stop ≤ items.length then some ((items.drop start).take (stop - start)) else none

/-- `items[start..stop].copy_from_slice(data)`; nothing where that is out of bounds, or the
lengths differ. -/
def copyFromSlice (items : List α) (start stop : Nat) (data : List α) : Option (List α) :=
  if start ≤ stop ∧ stop ≤ items.length ∧ data.length = stop - start then
    some (Bytes.splice items start data)
  else none

theorem indexRange_some {items : List α} {start stop : Nat} (order : start ≤ stop)
    (inside : stop ≤ items.length) :
    indexRange items start stop = some ((items.drop start).take (stop - start)) :=
  if_pos ⟨order, inside⟩

theorem copyFromSlice_some {items data : List α} {start stop : Nat}
    (inside : stop ≤ items.length) (order : start ≤ stop) (length : data.length = stop - start) :
    copyFromSlice items start stop data = some (Bytes.splice items start data) :=
  if_pos ⟨order, inside, length⟩

/-- The length of a slice that is in bounds. -/
theorem length_take_drop {items : List α} {start count : Nat}
    (inside : start + count ≤ items.length) : ((items.drop start).take count).length = count := by
  rw [List.length_take, List.length_drop]
  omega

/-! ## Copies one after another -/

/-- Some data, and where it goes. -/
structure Piece where
  offset : Nat
  data : List UInt8

/-- Where a piece ends. -/
def Piece.stop (piece : Piece) : Nat := piece.offset + piece.data.length

/-- The pieces copied one after another. -/
def overwrite (items : List UInt8) (pieces : List Piece) : List UInt8 :=
  pieces.foldl (fun items piece => Bytes.splice items piece.offset piece.data) items

/-- The same with the bounds checked. -/
def overwriteChecked (items : List UInt8) (pieces : List Piece) : Option (List UInt8) :=
  pieces.foldlM (fun items piece => copyFromSlice items piece.offset piece.stop piece.data) items

/-- The pieces are inside an array, and no two of them overlap. -/
structure Apart (length : Nat) (pieces : List Piece) : Prop where
  inside : ∀ piece ∈ pieces, piece.stop ≤ length
  disjoint : pieces.Pairwise fun a b => a.stop ≤ b.offset ∨ b.stop ≤ a.offset

variable {items : List UInt8} {pieces : List Piece}

theorem overwrite_length (inside : ∀ piece ∈ pieces, piece.stop ≤ items.length) :
    (overwrite items pieces).length = items.length := by
  induction pieces generalizing items with
  | nil => rfl
  | cons piece rest ih =>
    have first := inside piece List.mem_cons_self
    have length : (Bytes.splice items piece.offset piece.data).length = items.length :=
      Bytes.splice_length first
    have later : ∀ other ∈ rest, other.stop ≤
        (Bytes.splice items piece.offset piece.data).length := by
      intro other member
      rw [length]
      exact inside other (List.mem_cons_of_mem _ member)
    exact (ih later).trans length

/-- Copies of pieces inside an array are in bounds. -/
theorem overwriteChecked_eq (inside : ∀ piece ∈ pieces, piece.stop ≤ items.length) :
    overwriteChecked items pieces = some (overwrite items pieces) := by
  induction pieces generalizing items with
  | nil => rfl
  | cons piece rest ih =>
    have first := inside piece List.mem_cons_self
    have copied := copyFromSlice_some first (Nat.le_add_right ..)
      (Nat.add_sub_cancel_left piece.offset piece.data.length).symm
    rw [overwriteChecked, List.foldlM_cons, copied]
    apply ih
    intro other member
    rw [Bytes.splice_length first]
    exact inside other (List.mem_cons_of_mem _ member)

/-- An index that no piece covers reads as before. -/
theorem get_overwrite_outside {i : Nat} (inside : ∀ piece ∈ pieces, piece.stop ≤ items.length)
    (outside : ∀ piece ∈ pieces, ¬ (piece.offset ≤ i ∧ i < piece.stop)) :
    Bytes.get (overwrite items pieces) i = Bytes.get items i := by
  induction pieces generalizing items with
  | nil => rfl
  | cons piece rest ih =>
    have first := inside piece List.mem_cons_self
    have later : ∀ other ∈ rest, other.stop ≤
        (Bytes.splice items piece.offset piece.data).length := by
      intro other member
      rw [Bytes.splice_length first]
      exact inside other (List.mem_cons_of_mem _ member)
    refine (ih later fun other member => outside other (List.mem_cons_of_mem _ member)).trans ?_
    exact (Bytes.get_splice first i).trans (if_neg (outside piece List.mem_cons_self))

/-- An index that a piece covers reads as the piece, when the pieces are apart. -/
theorem get_overwrite_piece {i : Nat} {piece : Piece} (apart : Apart items.length pieces)
    (member : piece ∈ pieces) (low : piece.offset ≤ i) (high : i < piece.stop) :
    Bytes.get (overwrite items pieces) i = Bytes.get piece.data (i - piece.offset) := by
  obtain ⟨before, after, rfl⟩ := List.append_of_mem member
  have inside : ∀ other ∈ before, other.stop ≤ items.length := by
    intro other h
    exact apart.inside other (List.mem_append_left _ h)
  have length := overwrite_length inside
  have here := apart.inside piece member
  have split : overwrite items (before ++ piece :: after) =
      overwrite (Bytes.splice (overwrite items before) piece.offset piece.data) after :=
    List.foldl_append
  have first : piece.offset + piece.data.length ≤ (overwrite items before).length := by
    rw [length]
    exact here
  have disjoint := (List.pairwise_cons.mp (List.pairwise_append.mp apart.disjoint).2.1).1
  rw [split, get_overwrite_outside]
  · rw [Bytes.get_splice first, if_pos ⟨low, high⟩]
  · intro other h
    rw [Bytes.splice_length first, length]
    exact apart.inside other (List.mem_append_right _ (List.mem_cons_of_mem _ h))
  · intro other h covered
    rcases disjoint other h with order | order
    · exact Nat.not_lt_of_le (Nat.le_trans order covered.1) high
    · exact Nat.not_lt_of_le (Nat.le_trans order low) covered.2

end Sgfx
