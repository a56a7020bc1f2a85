import Mathlib.Algebra.Group.Nat.Defs
import Mathlib.Data.Nat.Bitwise

/-!
# Comparing sequences by blocks

The longest common prefix of two sequences may be found a block at a time: while
blocks are equal their lengths add up, and the first two that differ decide
(`commonPrefix_append_of_eq`, `commonPrefix_append_of_lt`).  A suffix is the prefix of
the reversed sequences.

Blocks of eight bytes are compared as machine words.  The exclusive or of two
little-endian words has its lowest set bit in the first byte that differs, and its
highest in the last (`xor_leWord_lowest`, `xor_leWord_highest`).

## Main Definitions

* `commonPrefix`, `commonSuffix`
* `chunks`, `rchunks` — `slice::chunks` and `slice::rchunks`
* `leWord` — a little-endian word
-/

namespace Sgfx

section Sequences

variable {α : Type} [DecidableEq α]

/-- How many elements two sequences share at the front. -/
def commonPrefix (xs ys : List α) : Nat := ((xs.zip ys).takeWhile fun p => p.1 == p.2).length

/-- How many elements two sequences share at the back. -/
def commonSuffix (xs ys : List α) : Nat := commonPrefix xs.reverse ys.reverse

@[simp] theorem commonPrefix_nil_left (ys : List α) : commonPrefix [] ys = 0 := rfl

@[simp] theorem commonPrefix_nil_right (xs : List α) : commonPrefix xs [] = 0 := by
  rw [commonPrefix, List.zip_nil_right]
  rfl

theorem commonPrefix_cons (x y : α) (xs ys : List α) :
    commonPrefix (x :: xs) (y :: ys) = if x = y then commonPrefix xs ys + 1 else 0 := by
  rw [commonPrefix, List.zip_cons_cons, List.takeWhile_cons]
  by_cases h : x = y
  · rw [if_pos (by simpa using h), if_pos h]
    rfl
  · rw [if_neg (by simpa using h), if_neg h]
    rfl

theorem commonPrefix_self (xs : List α) : commonPrefix xs xs = xs.length := by
  induction xs with
  | nil => rfl
  | cons x xs ih => rw [commonPrefix_cons, if_pos rfl, ih, List.length_cons]

theorem commonPrefix_le_left (xs ys : List α) : commonPrefix xs ys ≤ xs.length := by
  induction xs generalizing ys with
  | nil => exact Nat.zero_le _
  | cons x xs ih =>
      cases ys with
      | nil => exact Nat.zero_le _
      | cons y ys =>
          rw [commonPrefix_cons]
          split
          · exact Nat.succ_le_succ (ih ys)
          · exact Nat.zero_le _

theorem commonPrefix_comm (xs ys : List α) : commonPrefix xs ys = commonPrefix ys xs := by
  induction xs generalizing ys with
  | nil => rw [commonPrefix_nil_left, commonPrefix_nil_right]
  | cons x xs ih =>
      cases ys with
      | nil => rw [commonPrefix_nil_left, commonPrefix_nil_right]
      | cons y ys =>
          rw [commonPrefix_cons, commonPrefix_cons, ih]
          by_cases h : x = y
          · rw [if_pos h, if_pos h.symm]
          · rw [if_neg h, if_neg fun e => h e.symm]

theorem commonPrefix_le_right (xs ys : List α) : commonPrefix xs ys ≤ ys.length :=
  commonPrefix_comm xs ys ▸ commonPrefix_le_left ys xs

/-- Before the end of the common prefix the sequences agree. -/
theorem getElem?_of_lt_commonPrefix {xs ys : List α} {i : Nat} (h : i < commonPrefix xs ys) :
    xs[i]? = ys[i]? := by
  induction xs generalizing ys i with
  | nil => exact absurd h (Nat.not_lt_zero _)
  | cons x xs ih =>
      cases ys with
      | nil =>
          rw [commonPrefix_nil_right] at h
          exact absurd h (Nat.not_lt_zero _)
      | cons y ys =>
          rw [commonPrefix_cons] at h
          split at h
          · rename_i same
            cases i with
            | zero => rw [List.getElem?_cons_zero, List.getElem?_cons_zero, same]
            | succ i =>
                rw [List.getElem?_cons_succ, List.getElem?_cons_succ]
                exact ih (Nat.lt_of_succ_lt_succ h)
          · exact absurd h (Nat.not_lt_zero _)

/-- At the end of the common prefix they do not. -/
theorem getElem?_commonPrefix_ne {xs ys : List α} (hx : commonPrefix xs ys < xs.length)
    (hy : commonPrefix xs ys < ys.length) :
    xs[commonPrefix xs ys]? ≠ ys[commonPrefix xs ys]? := by
  induction xs generalizing ys with
  | nil => exact absurd hx (Nat.not_lt_zero _)
  | cons x xs ih =>
      cases ys with
      | nil => exact absurd hy (Nat.not_lt_zero _)
      | cons y ys =>
          rw [commonPrefix_cons] at hx hy ⊢
          split
          · rename_i same
            rw [if_pos same] at hx hy
            rw [List.getElem?_cons_succ, List.getElem?_cons_succ]
            exact ih (Nat.lt_of_succ_lt_succ hx) (Nat.lt_of_succ_lt_succ hy)
          · rename_i differ
            rw [List.getElem?_cons_zero, List.getElem?_cons_zero]
            exact fun h => differ (Option.some.inj h)

/-- A common prefix is determined by what holds before and at its end. -/
theorem commonPrefix_eq_of {xs ys : List α} {n : Nat} (same : ∀ i < n, xs[i]? = ys[i]?)
    (hx : n ≤ xs.length) (hy : n ≤ ys.length)
    (differ : n < xs.length → n < ys.length → xs[n]? ≠ ys[n]?) : commonPrefix xs ys = n := by
  induction n generalizing xs ys with
  | zero =>
      cases xs with
      | nil => rfl
      | cons x xs =>
          cases ys with
          | nil => exact commonPrefix_nil_right _
          | cons y ys =>
              have ne := differ (Nat.succ_pos _) (Nat.succ_pos _)
              rw [commonPrefix_cons, if_neg fun e => ne (by rw [e]; rfl)]
  | succ n ih =>
      cases xs with
      | nil => exact absurd hx (Nat.not_succ_le_zero _)
      | cons x xs =>
          cases ys with
          | nil => exact absurd hy (Nat.not_succ_le_zero _)
          | cons y ys =>
              have first : x = y := Option.some.inj (same 0 (Nat.succ_pos _))
              rw [commonPrefix_cons, if_pos first, ih (fun i h => same (i + 1) (Nat.succ_lt_succ h))
                (Nat.le_of_succ_le_succ hx) (Nat.le_of_succ_le_succ hy) fun h h' =>
                  differ (Nat.succ_lt_succ h) (Nat.succ_lt_succ h')]

/-- Equal blocks add up. -/
theorem commonPrefix_append_of_eq (block xs ys : List α) :
    commonPrefix (block ++ xs) (block ++ ys) = block.length + commonPrefix xs ys := by
  induction block with
  | nil => exact (Nat.zero_add _).symm
  | cons b block ih =>
      rw [List.cons_append, List.cons_append, commonPrefix_cons, if_pos rfl, ih, List.length_cons]
      omega

/-- Blocks of one length that differ decide. -/
theorem commonPrefix_append_of_ne {block block' : List α} (length : block.length = block'.length)
    (differ : block ≠ block') (xs ys : List α) :
    commonPrefix (block ++ xs) (block' ++ ys) = commonPrefix block block' := by
  induction block generalizing block' with
  | nil => exact absurd (List.length_eq_zero_iff.mp length.symm).symm differ
  | cons b block ih =>
      cases block' with
      | nil => exact absurd length (Nat.succ_ne_zero _)
      | cons b' block' =>
          rw [List.cons_append, List.cons_append, commonPrefix_cons, commonPrefix_cons]
          by_cases first : b = b'
          · rw [if_pos first, if_pos first, ih (Nat.succ.inj length) fun e => differ (by rw [first, e])]
          · rw [if_neg first, if_neg first]

/-- Comparing two sequences of one length element by element. -/
theorem all_zip_beq_iff {xs ys : List α} (length : xs.length = ys.length) :
    ((xs.zip ys).all fun p => p.1 == p.2) = true ↔ xs = ys := by
  induction xs generalizing ys with
  | nil => exact ⟨fun _ => (List.length_eq_zero_iff.mp length.symm).symm, fun _ => rfl⟩
  | cons x xs ih =>
      cases ys with
      | nil => exact absurd length (Nat.succ_ne_zero _)
      | cons y ys =>
          rw [List.zip_cons_cons, List.all_cons, Bool.and_eq_true, ih (Nat.succ.inj length),
            List.cons.injEq, beq_iff_eq]

/-! ## Blocks -/

/-- `slice::chunks`: blocks of `size` elements, the last one possibly shorter. -/
def chunks (size : Nat) (l : List α) : List (List α) :=
  if l = [] ∨ size = 0 then [] else l.take size :: chunks size (l.drop size)
termination_by l.length
decreasing_by
  rename_i h
  have nonempty : 0 < l.length := List.length_pos_iff.mpr fun e => h (.inl e)
  have : size ≠ 0 := fun e => h (.inr e)
  rw [List.length_drop]
  omega

omit [DecidableEq α] in
theorem chunks_of_ne_nil {size : Nat} (positive : size ≠ 0) {l : List α} (nonempty : l ≠ []) :
    chunks size l = l.take size :: chunks size (l.drop size) := by
  rw [chunks, if_neg (by simp [nonempty, positive])]

/-- `slice::rchunks`: blocks from the back. -/
def rchunks (size : Nat) (l : List α) : List (List α) :=
  (chunks size l.reverse).map List.reverse

/-- Finding a common prefix a block at a time: `common` is asked about the first two
blocks that differ. -/
def firstDifference (equal : List α → List α → Bool) (common : List α → List α → Nat) :
    List (List α × List α) → Nat
  | [] => 0
  | (x, y) :: rest =>
      if equal x y then x.length + firstDifference equal common rest else common x y

theorem firstDifference_chunks {equal : List α → List α → Bool}
    {common : List α → List α → Nat} {size : Nat} (positive : size ≠ 0)
    (hequal : ∀ x y, equal x y = true ↔ x = y)
    (hcommon : ∀ x y, common x y = commonPrefix x y) {xs ys : List α}
    (length : xs.length = ys.length) :
    firstDifference equal common ((chunks size xs).zip (chunks size ys)) = commonPrefix xs ys := by
  induction h : xs.length using Nat.strongRecOn generalizing xs ys with
  | ind n ih =>
      by_cases empty : xs = []
      · subst empty
        rw [chunks, if_pos (.inl rfl)]
        rfl
      have empty' : ys ≠ [] := fun e => empty (List.length_eq_zero_iff.mp (by rw [length, e]; rfl))
      have some : 0 < xs.length := List.length_pos_iff.mpr empty
      rw [chunks_of_ne_nil positive empty, chunks_of_ne_nil positive empty', List.zip_cons_cons,
        firstDifference]
      have blocks : (xs.take size).length = (ys.take size).length := by
        rw [List.length_take, List.length_take, length]
      have rests : (xs.drop size).length = (ys.drop size).length := by
        rw [List.length_drop, List.length_drop, length]
      have later := ih (xs.drop size).length (by rw [List.length_drop]; omega) rests rfl
      split
      · rename_i same
        rw [hequal] at same
        rw [later, ← commonPrefix_append_of_eq, List.take_append_drop, same, List.take_append_drop]
      · rename_i differ
        rw [hequal] at differ
        rw [hcommon, ← commonPrefix_append_of_ne blocks differ (xs.drop size) (ys.drop size),
          List.take_append_drop, List.take_append_drop]

theorem firstDifference_rchunks {equal : List α → List α → Bool}
    {common : List α → List α → Nat} {size : Nat} (positive : size ≠ 0)
    (hequal : ∀ x y, equal x y = true ↔ x = y)
    (hcommon : ∀ x y, common x y = commonSuffix x y) {xs ys : List α}
    (length : xs.length = ys.length) :
    firstDifference equal common ((rchunks size xs).zip (rchunks size ys)) = commonSuffix xs ys := by
  -- The blocks are those of the reversed sequences, each reversed once more.
  have reversed : ∀ blocks : List (List α × List α),
      firstDifference equal common (blocks.map fun b => (b.1.reverse, b.2.reverse)) =
        firstDifference (fun x y => equal x.reverse y.reverse)
          (fun x y => common x.reverse y.reverse) blocks := by
    intro blocks
    induction blocks with
    | nil => rfl
    | cons b blocks ih =>
        rw [List.map_cons, firstDifference, firstDifference, ih, List.length_reverse]
  have zipped : (rchunks size xs).zip (rchunks size ys) =
      ((chunks size xs.reverse).zip (chunks size ys.reverse)).map
        fun b => (b.1.reverse, b.2.reverse) := by
    rw [rchunks, rchunks, List.zip_map]
    rfl
  rw [zipped, reversed, commonSuffix]
  refine firstDifference_chunks positive (fun x y => ?_) (fun x y => ?_) (by simpa using length)
  · rw [hequal]
    exact List.reverse_inj
  · rw [hcommon, commonSuffix, List.reverse_reverse, List.reverse_reverse]

end Sequences

/-! ## Words -/

/-- The little-endian value of some bytes. -/
def leWord : List UInt8 → Nat
  | [] => 0
  | byte :: rest => 2 ^ 8 * leWord rest + byte.toNat

/-- Bit `t` of a word is bit `t % 8` of byte `t / 8`. -/
theorem testBit_leWord (bytes : List UInt8) (t : Nat) :
    (leWord bytes).testBit t = (bytes.getD (t / 8) 0).toNat.testBit (t % 8) := by
  induction bytes generalizing t with
  | nil =>
      rw [leWord, Nat.zero_testBit]
      exact (Nat.zero_testBit _).symm
  | cons byte rest ih =>
      rw [leWord, Nat.testBit_two_pow_mul_add _ byte.toNat_lt]
      split
      · rename_i low
        rw [Nat.div_eq_of_lt low, Nat.mod_eq_of_lt low]
        rfl
      · rename_i high
        have index : t / 8 = (t - 8) / 8 + 1 := by omega
        have bit : t % 8 = (t - 8) % 8 := by omega
        rw [ih, index, bit]
        rfl

/-- Words with the same bits are of the same bytes. -/
theorem leWord_inj {xs ys : List UInt8} (length : xs.length = ys.length)
    (h : leWord xs = leWord ys) : xs = ys := by
  induction xs generalizing ys with
  | nil => exact (List.length_eq_zero_iff.mp length.symm).symm
  | cons x xs ih =>
      cases ys with
      | nil => exact absurd length (Nat.succ_ne_zero _)
      | cons y ys =>
          rw [leWord, leWord] at h
          have hx := x.toNat_lt
          have hy := y.toNat_lt
          have byte : x = y := UInt8.toNat_inj.mp (by omega)
          rw [byte, ih (Nat.succ.inj length) (by omega)]

theorem xor_leWord_eq_zero_iff {xs ys : List UInt8} (length : xs.length = ys.length) :
    leWord xs ^^^ leWord ys = 0 ↔ xs = ys := by
  rw [Nat.xor_eq_zero_iff]
  exact ⟨leWord_inj length, fun h => by rw [h]⟩

/-- Bytes without a differing bit are equal. -/
theorem byte_eq_of_xor {xs ys : List UInt8} {i : Nat}
    (h : ∀ t, t / 8 = i → (leWord xs ^^^ leWord ys).testBit t = false) :
    xs.getD i 0 = ys.getD i 0 := by
  refine UInt8.toNat_inj.mp (Nat.eq_of_testBit_eq fun b => ?_)
  by_cases low : b < 8
  · have bit := h (8 * i + b) (by omega)
    rw [Nat.testBit_xor, testBit_leWord, testBit_leWord,
      show (8 * i + b) / 8 = i by omega, show (8 * i + b) % 8 = b by omega] at bit
    simpa using bit
  · have large : 2 ^ 8 ≤ 2 ^ b := Nat.pow_le_pow_right (by decide) (Nat.le_of_not_lt low)
    have zero : ∀ x : UInt8, x.toNat.testBit b = false := fun x =>
      Nat.testBit_lt_two_pow (Nat.lt_of_lt_of_le x.toNat_lt large)
    rw [zero, zero]

/-- A differing bit is in a differing byte. -/
theorem byte_ne_of_xor {xs ys : List UInt8} {t : Nat}
    (h : (leWord xs ^^^ leWord ys).testBit t = true) :
    xs.getD (t / 8) 0 ≠ ys.getD (t / 8) 0 := by
  intro same
  rw [Nat.testBit_xor, testBit_leWord, testBit_leWord, same, Bool.xor_self] at h
  cases h

/-- `u64::trailing_zeros`. -/
def trailingZeros (word : Nat) : Nat := (List.range 64).findIdx word.testBit

/-- `u64::leading_zeros`. -/
def leadingZeros (word : Nat) : Nat := (List.range 64).findIdx fun k => word.testBit (63 - k)

/-- The first index below 64 with a property. -/
theorem findIdx_range_spec {p : Nat → Bool} (h : ∃ t < 64, p t = true) :
    (List.range 64).findIdx p < 64 ∧ p ((List.range 64).findIdx p) = true ∧
      ∀ j < (List.range 64).findIdx p, p j = false := by
  have found : (List.range 64).findIdx p < (List.range 64).length := by
    obtain ⟨t, bound, set⟩ := h
    exact List.findIdx_lt_length_of_exists ⟨t, List.mem_range.mpr bound, set⟩
  refine ⟨by rwa [List.length_range] at found, ?_, fun j before => ?_⟩
  · have := List.findIdx_getElem (p := p) (w := found)
    rwa [List.getElem_range] at this
  · have := List.not_of_lt_findIdx before
    rwa [List.getElem_range] at this

theorem leWord_lt (bytes : List UInt8) : leWord bytes < 2 ^ (8 * bytes.length) := by
  induction bytes with
  | nil => exact Nat.one_pos
  | cons byte rest ih =>
      have := byte.toNat_lt
      rw [leWord, List.length_cons, Nat.mul_succ, Nat.add_comm (8 * _), Nat.pow_add]
      calc 2 ^ 8 * leWord rest + byte.toNat
        _ < 2 ^ 8 * leWord rest + 2 ^ 8 := Nat.add_lt_add_left this _
        _ = 2 ^ 8 * (leWord rest + 1) := (Nat.mul_succ ..).symm
        _ ≤ 2 ^ 8 * 2 ^ (8 * rest.length) := Nat.mul_le_mul_left _ ih

/-- Different words of eight bytes differ in one of 64 bits. -/
theorem exists_testBit_xor {xs ys : List UInt8} (hx : xs.length = 8) (hy : ys.length = 8)
    (differ : xs ≠ ys) : ∃ t < 64, (leWord xs ^^^ leWord ys).testBit t = true := by
  have nonzero : leWord xs ^^^ leWord ys ≠ 0 := fun h =>
    differ ((xor_leWord_eq_zero_iff (hx.trans hy.symm)).mp h)
  obtain ⟨t, set⟩ := Nat.exists_testBit_of_ne_zero nonzero
  refine ⟨t, Nat.lt_of_not_le fun large => ?_, set⟩
  have small : ∀ {zs : List UInt8}, zs.length = 8 → leWord zs < 2 ^ 64 := by
    intro zs length
    have := leWord_lt zs
    rwa [length] at this
  have bound : leWord xs ^^^ leWord ys < 2 ^ 64 := Nat.xor_lt_two_pow (small hx) (small hy)
  rw [Nat.testBit_lt_two_pow (Nat.lt_of_lt_of_le bound (Nat.pow_le_pow_right (by decide) large))]
    at set
  cases set

theorem getElem?_eq_getD {bytes : List UInt8} {i : Nat} (h : i < bytes.length) :
    bytes[i]? = some (bytes.getD i 0) := by
  rw [List.getD_eq_getElem?_getD, List.getElem?_eq_getElem h]
  rfl

/-- The lowest differing bit of two words is in their first differing byte. -/
theorem trailingZeros_xor {xs ys : List UInt8} (hx : xs.length = 8) (hy : ys.length = 8)
    (differ : xs ≠ ys) :
    trailingZeros (leWord xs ^^^ leWord ys) / 8 = commonPrefix xs ys := by
  obtain ⟨bound, set, below⟩ := findIdx_range_spec (exists_testBit_xor hx hy differ)
  refine (commonPrefix_eq_of (fun i before => ?_) ?_ ?_ fun inside inside' => ?_).symm
  · have same : xs.getD i 0 = ys.getD i 0 := by
      refine byte_eq_of_xor fun t byte => below t ?_
      rw [trailingZeros] at before
      omega
    rw [trailingZeros] at before
    rw [getElem?_eq_getD (by omega), getElem?_eq_getD (by omega), same]
  · rw [trailingZeros]
    omega
  · rw [trailingZeros]
    omega
  · rw [getElem?_eq_getD inside, getElem?_eq_getD inside']
    exact fun h => byte_ne_of_xor set (Option.some.inj h)

/-- The highest differing bit of two words is in their last differing byte. -/
theorem leadingZeros_xor {xs ys : List UInt8} (hx : xs.length = 8) (hy : ys.length = 8)
    (differ : xs ≠ ys) :
    leadingZeros (leWord xs ^^^ leWord ys) / 8 = commonSuffix xs ys := by
  have mirrored : ∃ t < 64, (leWord xs ^^^ leWord ys).testBit (63 - t) = true := by
    obtain ⟨t, bound, set⟩ := exists_testBit_xor hx hy differ
    exact ⟨63 - t, by omega, by rwa [show 63 - (63 - t) = t by omega]⟩
  obtain ⟨bound, set, above⟩ := findIdx_range_spec mirrored
  have back : ∀ {zs : List UInt8} {i : Nat}, zs.length = 8 → i < 8 →
      zs.reverse[i]? = some (zs.getD (7 - i) 0) := by
    intro zs i length inside
    rw [List.getElem?_reverse (by omega), length, getElem?_eq_getD (by omega)]
  rw [commonSuffix, leadingZeros]
  refine (commonPrefix_eq_of (fun i before => ?_) ?_ ?_ fun _ _ => ?_).symm
  · have same : xs.getD (7 - i) 0 = ys.getD (7 - i) 0 := by
      refine byte_eq_of_xor fun t byte => ?_
      have := above (63 - t) (by omega)
      rwa [show 63 - (63 - t) = t by omega] at this
    rw [back hx (by omega), back hy (by omega), same]
  · rw [List.length_reverse]
    omega
  · rw [List.length_reverse]
    omega
  · have last := byte_ne_of_xor set
    rw [back hx (by omega), back hy (by omega)]
    intro h
    refine last ?_
    rw [show ∀ k < 64, (63 - k) / 8 = 7 - k / 8 by intro k _; omega]
    · exact Option.some.inj h
    · exact bound

end Sgfx
