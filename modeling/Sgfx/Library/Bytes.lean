import Mathlib.Algebra.Group.Nat.Defs
import Mathlib.Data.List.GetD
import Mathlib.Tactic.Common

/-!
# Zero-extended byte arrays

A growable array reads as zero past its end, so two arrays are told apart by their
lengths and by the total function `Bytes.get`.  The operations a program performs in
place (fill a window from another array, grow, overwrite a slice) are each described
by what the array reads afterwards.

The second half compares arrays: `commonPrefix` is the length of the longest common
prefix, which chunked comparisons compute piece by piece.

## Main Definitions

* `Bytes.get`, `Bytes.window` — reading past the end
* `Bytes.splice`, `Bytes.resize` — `copy_from_slice` into a slice, and `Vec::resize`
* `Bytes.write` — overwrite in a zero-extended array
* `Bytes.fromLeBytes`, `Bytes.toLeBytes`
* `commonPrefix`, `commonSuffix`, `chunks`
-/

namespace Sgfx

namespace Bytes

/-- The element at an index, zero past the end. -/
def get (bytes : List UInt8) (i : Nat) : UInt8 := bytes.getD i 0

/-- `length` elements from `start`, zero past the end. -/
def window (bytes : List UInt8) (start length : Nat) : List UInt8 :=
  (List.range length).map fun i => get bytes (start + i)

/-- Overwrite the elements from `start`, which must be there. -/
def splice {α : Type} (items : List α) (start : Nat) (data : List α) : List α :=
  items.take start ++ data ++ items.drop (start + data.length)

/-- `Vec::resize` with zeros. -/
def resize (bytes : List UInt8) (length : Nat) : List UInt8 :=
  bytes.take length ++ List.replicate (length - bytes.length) 0

/-- Overwrite the elements from `start`, growing the array when they are not there. -/
def write (bytes : List UInt8) (start : Nat) (data : List UInt8) : List UInt8 :=
  splice (resize bytes (max bytes.length (start + data.length))) start data

/-! ## Reading -/

theorem get_of_length_le {bytes : List UInt8} {i : Nat} (h : bytes.length ≤ i) : get bytes i = 0 :=
  List.getD_eq_default _ _ h

theorem get_append (xs ys : List UInt8) (i : Nat) :
    get (xs ++ ys) i = if i < xs.length then get xs i else get ys (i - xs.length) := by
  unfold get
  split
  · rename_i h
    rw [List.getD_append _ _ _ _ h]
  · rename_i h
    rw [List.getD_append_right _ _ _ _ (Nat.le_of_not_lt h)]

theorem get_take (bytes : List UInt8) (n i : Nat) :
    get (bytes.take n) i = if i < n then get bytes i else 0 := by
  unfold get
  rw [List.getD_eq_getElem?_getD, List.getElem?_take]
  split
  · rw [List.getD_eq_getElem?_getD]
  · rfl

theorem get_drop (bytes : List UInt8) (n i : Nat) : get (bytes.drop n) i = get bytes (n + i) := by
  unfold get
  rw [List.getD_eq_getElem?_getD, List.getElem?_drop, List.getD_eq_getElem?_getD]

theorem get_replicate_zero (n i : Nat) : get (List.replicate n (0 : UInt8)) i = 0 := by
  unfold get
  rw [List.getD_eq_getElem?_getD, List.getElem?_replicate]
  split <;> rfl

/-- Arrays of one length that read the same are equal. -/
theorem ext {xs ys : List UInt8} (length : xs.length = ys.length)
    (h : ∀ i < xs.length, get xs i = get ys i) : xs = ys := by
  refine List.ext_getElem length fun i hx hy => ?_
  have := h i hx
  rwa [get, get, List.getD_eq_getElem _ _ hx, List.getD_eq_getElem _ _ hy] at this

@[simp] theorem window_length (bytes : List UInt8) (start length : Nat) :
    (window bytes start length).length = length := by
  rw [window, List.length_map, List.length_range]

theorem get_window (bytes : List UInt8) (start length i : Nat) :
    get (window bytes start length) i = if i < length then get bytes (start + i) else 0 := by
  rw [get, window, List.getD_eq_getElem?_getD, List.getElem?_map]
  split
  · rename_i h
    rw [List.getElem?_range h]
    rfl
  · rename_i h
    rw [List.getElem?_eq_none (by rw [List.length_range]; exact Nat.le_of_not_lt h)]
    rfl

theorem window_congr {xs ys : List UInt8} {start length : Nat}
    (h : ∀ i, start ≤ i → i < start + length → get xs i = get ys i) :
    window xs start length = window ys start length := by
  refine List.map_congr_left fun i member => ?_
  have := List.mem_range.mp member
  exact h _ (Nat.le_add_right ..) (Nat.add_lt_add_left this start)

/-! ## Writing -/

theorem splice_length {α : Type} {items data : List α} {start : Nat}
    (inside : start + data.length ≤ items.length) :
    (splice items start data).length = items.length := by
  rw [splice, List.length_append, List.length_append, List.length_take, List.length_drop]
  omega

theorem getElem?_splice {α : Type} {items data : List α} {start : Nat}
    (inside : start + data.length ≤ items.length) (i : Nat) :
    (splice items start data)[i]? =
      if start ≤ i ∧ i < start + data.length then data[i - start]? else items[i]? := by
  have taken : (items.take start).length = start := List.length_take_of_le (by omega)
  rw [splice, List.append_assoc]
  by_cases before : i < start
  · rw [if_neg (by omega), List.getElem?_append_left (by omega), List.getElem?_take_of_lt before]
  · rw [List.getElem?_append_right (by omega), taken]
    by_cases here : i < start + data.length
    · rw [if_pos ⟨Nat.le_of_not_lt before, here⟩, List.getElem?_append_left (by omega)]
    · rw [if_neg (fun h => here h.2), List.getElem?_append_right (by omega), List.getElem?_drop]
      congr 1
      omega

theorem getD_splice {α : Type} {items data : List α} {start : Nat}
    (inside : start + data.length ≤ items.length) (fallback : α) (i : Nat) :
    (splice items start data).getD i fallback =
      if start ≤ i ∧ i < start + data.length then data.getD (i - start) fallback
      else items.getD i fallback := by
  simp only [List.getD_eq_getElem?_getD, getElem?_splice inside]
  split <;> rfl

theorem get_splice {bytes data : List UInt8} {start : Nat}
    (inside : start + data.length ≤ bytes.length) (i : Nat) :
    get (splice bytes start data) i =
      if start ≤ i ∧ i < start + data.length then get data (i - start) else get bytes i :=
  getD_splice inside 0 i

/-- Overwriting with what is there changes nothing. -/
theorem splice_same {α : Type} {items data : List α} {start : Nat}
    (same : (items.drop start).take data.length = data) : splice items start data = items := by
  have rest : data ++ items.drop (start + data.length) = items.drop start := by
    rw [← List.drop_drop]
    conv_lhs => arg 1; rw [← same]
    exact List.take_append_drop ..
  rw [splice, List.append_assoc, rest, List.take_append_drop]

theorem resize_length (bytes : List UInt8) (length : Nat) : (resize bytes length).length = length := by
  rw [resize, List.length_append, List.length_take, List.length_replicate]
  omega

/-- Only what follows a fixed part is cut or filled. -/
theorem resize_append (xs ys : List UInt8) (length : Nat) :
    resize (xs ++ ys) (xs.length + length) = xs ++ resize ys length := by
  rw [resize, resize, List.take_length_add_append, List.length_append, Nat.add_sub_add_left,
    List.append_assoc]

theorem get_resize {bytes : List UInt8} {length : Nat} (grows : bytes.length ≤ length) (i : Nat) :
    get (resize bytes length) i = get bytes i := by
  rw [resize, List.take_of_length_le grows, get_append, get_replicate_zero]
  split
  · rfl
  · rename_i h
    rw [get_of_length_le (Nat.le_of_not_lt h)]

theorem get_resize_lt {bytes : List UInt8} {length i : Nat} (h : i < length) :
    get (resize bytes length) i = get bytes i := by
  rw [resize, get_append, get_replicate_zero, List.length_take, get_take, if_pos h]
  split
  · rfl
  · rw [get_of_length_le (by omega)]

theorem resize_self (bytes : List UInt8) : resize bytes bytes.length = bytes := by
  rw [resize, List.take_length, Nat.sub_self, List.replicate_zero, List.append_nil]

theorem write_length (bytes data : List UInt8) (start : Nat) :
    (write bytes start data).length = max bytes.length (start + data.length) := by
  rw [write, splice_length (by rw [resize_length]; exact Nat.le_max_right ..), resize_length]

theorem get_write (bytes data : List UInt8) (start i : Nat) :
    get (write bytes start data) i =
      if start ≤ i ∧ i < start + data.length then get data (i - start) else get bytes i := by
  rw [write, get_splice (by rw [resize_length]; exact Nat.le_max_right ..),
    get_resize (Nat.le_max_left ..)]

/-- A write changes nothing exactly when it neither grows the array nor changes an
element. -/
theorem write_eq_self_iff {bytes data : List UInt8} {start : Nat} :
    write bytes start data = bytes ↔
      start + data.length ≤ bytes.length ∧
        ∀ i < data.length, get bytes (start + i) = get data i := by
  constructor
  · intro h
    have length := congrArg List.length h
    rw [write_length] at length
    refine ⟨by omega, fun i inside => ?_⟩
    have read := get_write bytes data start (start + i)
    rwa [h, if_pos ⟨Nat.le_add_right .., Nat.add_lt_add_left inside start⟩,
      Nat.add_sub_cancel_left] at read
  · rintro ⟨inside, same⟩
    refine ext (by rw [write_length, Nat.max_eq_left inside]) fun i _ => ?_
    rw [get_write]
    split
    · rename_i here
      have := same (i - start) (by omega)
      rwa [Nat.add_sub_cancel' here.1, eq_comm] at this
    · rfl

/-! ## Little-endian numbers -/

/-- `from_le_bytes`, as a number. -/
def fromLeBytes (bytes : List UInt8) : Nat :=
  bytes.foldr (fun byte rest => byte.toNat + 256 * rest) 0

/-- `to_le_bytes`: the lowest bytes of a number. -/
def toLeBytes : (count : Nat) → Nat → List UInt8
  | 0, _ => []
  | count + 1, n => UInt8.ofNat n :: toLeBytes count (n / 256)

theorem fromLeBytes_lt (bytes : List UInt8) : fromLeBytes bytes < 256 ^ bytes.length := by
  induction bytes with
  | nil => exact Nat.one_pos
  | cons byte rest ih =>
    have hbyte := byte.toNat_lt
    rw [List.length_cons, Nat.pow_succ]
    change byte.toNat + 256 * fromLeBytes rest < _
    omega

@[simp] theorem toLeBytes_length (count n : Nat) : (toLeBytes count n).length = count := by
  induction count generalizing n with
  | zero => rfl
  | succ count ih => rw [toLeBytes, List.length_cons, ih]

/-- A number that fits in its bytes is read back. -/
theorem fromLeBytes_toLeBytes {count n : Nat} (fits : n < 256 ^ count) :
    fromLeBytes (toLeBytes count n) = n := by
  induction count generalizing n with
  | zero => exact (Nat.lt_one_iff.mp fits).symm
  | succ count ih =>
    have hrest : n / 256 < 256 ^ count := Nat.div_lt_of_lt_mul (by rwa [Nat.pow_succ'] at fits)
    change (UInt8.ofNat n).toNat + 256 * fromLeBytes (toLeBytes count (n / 256)) = n
    rw [ih hrest, UInt8.toNat_ofNat']
    omega

/-- The bytes of a number, of which there may be more. -/
theorem toLeBytes_fromLeBytes {count : Nat} {bytes : List UInt8} (h : bytes.length ≤ count) :
    (toLeBytes count (fromLeBytes bytes)).take bytes.length = bytes := by
  induction bytes generalizing count with
  | nil => rfl
  | cons byte rest ih =>
    obtain ⟨count, rfl⟩ := Nat.exists_eq_succ_of_ne_zero (Nat.ne_zero_of_lt h)
    have hbyte := byte.toNat_lt
    have hrest : (byte.toNat + 256 * fromLeBytes rest) / 256 = fromLeBytes rest := by omega
    have hfirst : UInt8.ofNat (byte.toNat + 256 * fromLeBytes rest) = byte := by
      rw [← UInt8.toNat_inj, UInt8.toNat_ofNat']
      omega
    show (UInt8.ofNat (byte.toNat + 256 * fromLeBytes rest) ::
      toLeBytes count ((byte.toNat + 256 * fromLeBytes rest) / 256)).take (rest.length + 1) = _
    rw [hrest, hfirst, List.take_succ_cons, ih (Nat.le_of_succ_le_succ h)]

end Bytes

end Sgfx
