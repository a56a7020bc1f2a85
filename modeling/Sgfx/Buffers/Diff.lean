import Sgfx.Library.Bytes
import Sgfx.Library.Comparison
import Sgfx.Types

/-!
# Changed bytes

`changed_buffer_bytes` bounds what a write changes in a buffer: it walks over the
common prefix and the common suffix of the old and the new bytes, 4096 bytes at a
time, and within the first block that differs eight bytes at a time, as words.

Offsets are `usize` values of a 64-bit target, kept as natural numbers; where the
source checks an addition the check is made here.

## Main Definitions

* `equalBufferChunk`, `commonBufferPrefix`, `commonBufferSuffix`
* `changedBufferBytes`

## Main Results

* `equalBufferChunk_iff`, `commonBufferPrefix_eq`, `commonBufferSuffix_eq`
* `changedBufferBytes_eq`
-/

namespace Sgfx

/-- `Range<usize>`. -/
structure ByteRange where
  start : Nat
  stop : Nat
deriving DecidableEq, Repr

/-- `Range::is_empty`. -/
def ByteRange.isEmpty (range : ByteRange) : Bool := decide (range.stop ≤ range.start)

/-- `usize::checked_add`. -/
def checkedAddUsize (a b : Nat) : Option Nat := if a + b < 2 ^ 64 then some (a + b) else none

/-- The `i`-th word of some bytes. -/
def wordAt (bytes : List UInt8) (i : Nat) : Nat := leWord ((bytes.drop (8 * i)).take 8)

/-- The `i`-th word of some bytes, from the back. -/
def wordFromBack (bytes : List UInt8) (i : Nat) : Nat :=
  leWord ((bytes.drop (bytes.length - 8 * i - 8)).take 8)

/-- `equal_buffer_chunk`. -/
def equalBufferChunk (old new : List UInt8) : Bool :=
  if old.length ≠ new.length then false
  else
    let words := old.length / 8
    let difference :=
      (List.range words).foldl (fun d i => d ||| (wordAt old i ^^^ wordAt new i)) 0
    difference == 0 &&
      ((old.drop (8 * words)).zip (new.drop (8 * words))).all fun p => p.1 == p.2

/-- `common_buffer_prefix`. -/
def commonBufferPrefix (old new : List UInt8) : Nat :=
  let n := min old.length new.length
  let words := n / 8
  match (List.range words).find? fun i => wordAt old i ^^^ wordAt new i != 0 with
  | some i => 8 * i + trailingZeros (wordAt old i ^^^ wordAt new i) / 8
  | none =>
      8 * words + ((((old.take n).drop (8 * words)).zip ((new.take n).drop (8 * words))).takeWhile
        fun p => p.1 == p.2).length

/-- `common_buffer_suffix`. -/
def commonBufferSuffix (old new : List UInt8) : Nat :=
  let words := min old.length new.length / 8
  match (List.range words).find? fun i => wordFromBack old i ^^^ wordFromBack new i != 0 with
  | some i => 8 * i + leadingZeros (wordFromBack old i ^^^ wordFromBack new i) / 8
  | none =>
      8 * words + (((old.take (old.length - 8 * words)).reverse.zip
        (new.take (new.length - 8 * words)).reverse).takeWhile fun p => p.1 == p.2).length

/-- `changed_buffer_bytes`. -/
def changedBufferBytes (previous : Option (List UInt8)) (start : Nat) (data : List UInt8) :
    Option ByteRange := do
  let stop ← checkedAddUsize start data.length
  match previous with
  | none => pure ⟨0, stop⟩
  | some previous =>
      let old := previous.drop start
      let overlap := min old.length data.length
      let front := firstDifference equalBufferChunk commonBufferPrefix
        ((chunks 4096 (old.take overlap)).zip (chunks 4096 (data.take overlap)))
      let back :=
        if data.length ≤ old.length then
          firstDifference equalBufferChunk commonBufferSuffix
            ((rchunks 4096 ((old.take data.length).drop front)).zip
              (rchunks 4096 (data.drop front)))
        else 0
      pure ⟨min (start + front) previous.length, stop - back⟩

/-! ## Words of equal bytes -/

theorem foldl_or_eq_zero {f : Nat → Nat} {l : List Nat} {d : Nat} :
    l.foldl (fun d i => d ||| f i) d = 0 ↔ d = 0 ∧ ∀ i ∈ l, f i = 0 := by
  induction l generalizing d with
  | nil => simp
  | cons i l ih =>
      rw [List.foldl_cons, ih, List.forall_mem_cons, Nat.or_eq_zero_iff, and_assoc]

/-- Bytes whose first words are equal are equal up to there. -/
theorem take_eq_of_words {old new : List UInt8} {n : Nat} (hold : 8 * n ≤ old.length)
    (hnew : 8 * n ≤ new.length) (same : ∀ i < n, wordAt old i ^^^ wordAt new i = 0) :
    old.take (8 * n) = new.take (8 * n) := by
  induction n with
  | zero => rfl
  | succ n ih =>
      have before := ih (by omega) (by omega) fun i h => same i (Nat.lt_succ_of_lt h)
      have block := same n (Nat.lt_succ_self n)
      have lengths : ((old.drop (8 * n)).take 8).length = ((new.drop (8 * n)).take 8).length := by
        rw [List.length_take, List.length_take, List.length_drop, List.length_drop]
        omega
      rw [wordAt, wordAt, xor_leWord_eq_zero_iff lengths] at block
      rw [Nat.mul_succ, List.take_add, List.take_add, before, block]

theorem wordAt_reverse {bytes : List UInt8} {i : Nat} (inside : 8 * i + 8 ≤ bytes.length) :
    (bytes.drop (bytes.length - 8 * i - 8)).take 8 =
      ((bytes.reverse.drop (8 * i)).take 8).reverse := by
  rw [List.drop_reverse, List.take_reverse, List.reverse_reverse, List.length_take,
    List.drop_take, Nat.min_eq_left (by omega)]
  congr 1
  omega

theorem equalBufferChunk_iff (old new : List UInt8) : equalBufferChunk old new = true ↔ old = new := by
  rw [equalBufferChunk]
  split
  · rename_i differ
    simp only [Bool.false_eq_true, false_iff]
    exact fun h => differ (by rw [h])
  rename_i length
  have length : old.length = new.length := Classical.not_not.mp length
  have bound : 8 * (old.length / 8) ≤ old.length := Nat.mul_div_le ..
  have rest : (old.drop (8 * (old.length / 8))).length = (new.drop (8 * (old.length / 8))).length := by
    rw [List.length_drop, List.length_drop, length]
  simp only [Bool.and_eq_true, beq_iff_eq]
  rw [all_zip_beq_iff rest, foldl_or_eq_zero]
  constructor
  · rintro ⟨⟨-, words⟩, back⟩
    have front := take_eq_of_words bound (length ▸ bound) fun i h =>
      words i (List.mem_range.mpr h)
    rw [← List.take_append_drop (8 * (old.length / 8)) old, front, back, List.take_append_drop]
  · rintro rfl
    exact ⟨⟨rfl, fun i _ => Nat.xor_self _⟩, rfl⟩

/-! ## The first word that differs -/

theorem find?_range_some {p : Nat → Bool} {n i : Nat} (h : (List.range n).find? p = some i) :
    i < n ∧ p i = true ∧ ∀ j < i, p j = false := by
  rw [List.find?_range_eq_some] at h
  obtain ⟨holds, member, before⟩ := h
  exact ⟨List.mem_range.mp member, holds, fun j less => by simpa using before j less⟩

theorem find?_range_none {p : Nat → Bool} {n : Nat} (h : (List.range n).find? p = none) :
    ∀ j < n, p j = false := by
  intro j less
  have := List.find?_eq_none.mp h j (List.mem_range.mpr less)
  rwa [Bool.not_eq_true] at this

/-- The word loop of `common_buffer_prefix`. -/
theorem commonPrefix_of_words {old new : List UInt8} {i : Nat} (hold : 8 * i ≤ old.length)
    (hnew : 8 * i ≤ new.length) (same : ∀ j < i, wordAt old j ^^^ wordAt new j = 0) :
    commonPrefix old new = 8 * i + commonPrefix (old.drop (8 * i)) (new.drop (8 * i)) := by
  have front := take_eq_of_words hold hnew same
  have length : (new.take (8 * i)).length = 8 * i := by
    rw [List.length_take]
    omega
  calc commonPrefix old new
    _ = commonPrefix (old.take (8 * i) ++ old.drop (8 * i)) (new.take (8 * i) ++ new.drop (8 * i)) := by
        rw [List.take_append_drop, List.take_append_drop]
    _ = 8 * i + commonPrefix (old.drop (8 * i)) (new.drop (8 * i)) := by
        rw [front, commonPrefix_append_of_eq, length]

/-- A word that differs decides. -/
theorem commonPrefix_of_block {xs ys : List UInt8} (hx : 8 ≤ xs.length) (hy : 8 ≤ ys.length)
    (differ : xs.take 8 ≠ ys.take 8) : commonPrefix xs ys = commonPrefix (xs.take 8) (ys.take 8) := by
  have lengths : (xs.take 8).length = (ys.take 8).length := by
    rw [List.length_take, List.length_take]
    omega
  rw [← commonPrefix_append_of_ne lengths differ (xs.drop 8) (ys.drop 8), List.take_append_drop,
    List.take_append_drop]

theorem commonBufferPrefix_eq (old new : List UInt8) :
    commonBufferPrefix old new = commonPrefix old new := by
  rw [commonBufferPrefix]
  have bound : 8 * (min old.length new.length / 8) ≤ min old.length new.length :=
    Nat.mul_div_le ..
  split
  · rename_i i found
    obtain ⟨less, differ, before⟩ := find?_range_some found
    have hold : 8 ≤ (old.drop (8 * i)).length := by
      rw [List.length_drop]
      omega
    have hnew : 8 ≤ (new.drop (8 * i)).length := by
      rw [List.length_drop]
      omega
    have lengths : ((old.drop (8 * i)).take 8).length = 8 ∧ ((new.drop (8 * i)).take 8).length = 8 := by
      rw [List.length_take, List.length_take]
      omega
    have blocks : (old.drop (8 * i)).take 8 ≠ (new.drop (8 * i)).take 8 := by
      intro same
      rw [wordAt, wordAt, same, Nat.xor_self] at differ
      cases differ
    rw [commonPrefix_of_words (i := i) (by omega) (by omega) fun j less => by simpa using before j less,
      commonPrefix_of_block hold hnew blocks, wordAt, wordAt,
      trailingZeros_xor lengths.1 lengths.2 blocks]
  · rename_i none
    have same := find?_range_none none
    rw [commonPrefix_of_words (i := min old.length new.length / 8) (by omega) (by omega)
      fun j less => by simpa using same j less]
    -- Zipping stops at the shorter of the two anyway.
    have shorter : min old.length new.length - 8 * (min old.length new.length / 8) =
        min (old.drop (8 * (min old.length new.length / 8))).length
          (new.drop (8 * (min old.length new.length / 8))).length := by
      rw [List.length_drop, List.length_drop]
      omega
    rw [List.drop_take, List.drop_take, shorter, ← List.zip_eq_zip_take_min]
    rfl

theorem wordFromBack_eq {bytes : List UInt8} {i : Nat} (inside : 8 * i + 8 ≤ bytes.length) :
    wordFromBack bytes i = leWord ((bytes.reverse.drop (8 * i)).take 8).reverse := by
  rw [wordFromBack, wordAt_reverse inside]

/-- Bytes whose last words are equal are equal from there. -/
theorem reverse_take_eq_of_words {old new : List UInt8} {n : Nat} (hold : 8 * n ≤ old.length)
    (hnew : 8 * n ≤ new.length) (same : ∀ i < n, wordFromBack old i ^^^ wordFromBack new i = 0) :
    old.reverse.take (8 * n) = new.reverse.take (8 * n) := by
  induction n with
  | zero => rfl
  | succ n ih =>
      have before := ih (by omega) (by omega) fun i h => same i (Nat.lt_succ_of_lt h)
      have block := same n (Nat.lt_succ_self n)
      have lengths : ((old.reverse.drop (8 * n)).take 8).reverse.length =
          ((new.reverse.drop (8 * n)).take 8).reverse.length := by
        simp only [List.length_reverse, List.length_take, List.length_drop]
        omega
      rw [wordFromBack_eq (by omega), wordFromBack_eq (by omega),
        xor_leWord_eq_zero_iff lengths] at block
      rw [Nat.mul_succ, List.take_add, List.take_add, before, List.reverse_inj.mp block]

theorem commonBufferSuffix_eq (old new : List UInt8) :
    commonBufferSuffix old new = commonSuffix old new := by
  rw [commonBufferSuffix]
  have bound : 8 * (min old.length new.length / 8) ≤ min old.length new.length :=
    Nat.mul_div_le ..
  -- The loop of the prefix, over the reversed bytes.
  have split_at : ∀ i, 8 * i ≤ old.length → 8 * i ≤ new.length →
      (∀ j < i, wordFromBack old j ^^^ wordFromBack new j = 0) →
      commonSuffix old new =
        8 * i + commonPrefix (old.reverse.drop (8 * i)) (new.reverse.drop (8 * i)) := by
    intro i hold hnew same
    have front := reverse_take_eq_of_words hold hnew same
    have length : (new.reverse.take (8 * i)).length = 8 * i := by
      rw [List.length_take, List.length_reverse]
      omega
    calc commonSuffix old new
      _ = commonPrefix (old.reverse.take (8 * i) ++ old.reverse.drop (8 * i))
            (new.reverse.take (8 * i) ++ new.reverse.drop (8 * i)) := by
          rw [List.take_append_drop, List.take_append_drop, commonSuffix]
      _ = _ := by rw [front, commonPrefix_append_of_eq, length]
  split
  · rename_i i found
    obtain ⟨less, differ, before⟩ := find?_range_some found
    have hold : 8 ≤ (old.reverse.drop (8 * i)).length := by
      rw [List.length_drop, List.length_reverse]
      omega
    have hnew : 8 ≤ (new.reverse.drop (8 * i)).length := by
      rw [List.length_drop, List.length_reverse]
      omega
    have eight : ∀ {l : List UInt8}, 8 ≤ l.length → (l.take 8).reverse.length = 8 := by
      intro l h
      rw [List.length_reverse, List.length_take]
      omega
    have blocks : (old.reverse.drop (8 * i)).take 8 ≠ (new.reverse.drop (8 * i)).take 8 := by
      intro same
      rw [wordFromBack_eq (by omega), wordFromBack_eq (by omega), same, Nat.xor_self] at differ
      cases differ
    rw [split_at i (by omega) (by omega) fun j less => by simpa using before j less,
      commonPrefix_of_block hold hnew blocks, wordFromBack_eq (by omega),
      wordFromBack_eq (by omega), leadingZeros_xor (eight hold) (eight hnew) fun same =>
        blocks (List.reverse_inj.mp same), commonSuffix, List.reverse_reverse, List.reverse_reverse]
  · rename_i none
    have same := find?_range_none none
    rw [split_at (min old.length new.length / 8) (by omega) (by omega)
      fun j less => by simpa using same j less, List.drop_reverse, List.drop_reverse]
    rfl

/-! ## The changed range -/

/-- What `changed_buffer_bytes` computes. -/
theorem changedBufferBytes_eq (previous : Option (List UInt8)) (start : Nat) (data : List UInt8) :
    changedBufferBytes previous start data = (checkedAddUsize start data.length).map fun stop =>
      match previous with
      | none => ⟨0, stop⟩
      | some previous =>
          let old := previous.drop start
          let overlap := min old.length data.length
          let front := commonPrefix (old.take overlap) (data.take overlap)
          let back :=
            if data.length ≤ old.length then
              commonSuffix ((old.take data.length).drop front) (data.drop front)
            else 0
          ⟨min (start + front) previous.length, stop - back⟩ := by
  rw [changedBufferBytes]
  cases hstop : checkedAddUsize start data.length with
  | none => rfl
  | some stop =>
      cases previous with
      | none => rfl
      | some previous =>
          have front : firstDifference equalBufferChunk commonBufferPrefix
              ((chunks 4096 ((previous.drop start).take (min (previous.drop start).length data.length))).zip
                (chunks 4096 (data.take (min (previous.drop start).length data.length)))) =
              commonPrefix ((previous.drop start).take (min (previous.drop start).length data.length))
                (data.take (min (previous.drop start).length data.length)) := by
            refine firstDifference_chunks (by decide) equalBufferChunk_iff commonBufferPrefix_eq ?_
            rw [List.length_take, List.length_take]
            omega
          simp only [Option.bind_eq_bind, Option.bind_some, Option.map_some, front]
          congr 2
          split
          · rename_i shorter
            refine congrArg (stop - ·) (firstDifference_rchunks (by decide) equalBufferChunk_iff
              commonBufferSuffix_eq ?_)
            have taken : ((previous.drop start).take data.length).length = data.length := by
              rw [List.length_take, Nat.min_eq_left shorter]
            exact List.length_drop.trans ((congrArg (· - _) taken).trans List.length_drop.symm)
          · rfl

end Sgfx
