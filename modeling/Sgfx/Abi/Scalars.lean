import Sgfx.Library.Bytes
import Sgfx.Library.Slices
import Sgfx.Library.WordCodec
import Sgfx.Types

/-!
# Words of a snapshot

Numbers, flags and texts as the words of a snapshot row.  A `usize` has 64 bits here, and a
text is its length in bytes and the bytes, eight to a word.

## Main Definitions

* `u8`, `u32`, `u64`, `usize`, `bool`, `f32` — one word each
* `flagWord`, `flags` — a set of flags in one word
* `text` — a string

## Main Results

* `u32_readsBack`, `flags_reads`, `text_readsBack`, …
-/

namespace Sgfx.Abi

open Bytes

/-- `Codec`: how a type is put into a row and got from it. -/
abbrev RowCodec (α : Type) : Type := Codec UInt64 Error α

/-- `Reader::word`. -/
def word : Reader UInt64 Error UInt64 := Reader.word .invalidDescriptor

theorem word_reads (w : UInt64) : Reads word [w] w := Reads.word w

/-! ## Numbers -/

def u64 : RowCodec UInt64 where
  put x := [x]
  get := word

/-- A length or an index. -/
def usize : RowCodec Nat where
  put n := [.ofNat n]
  get := do
    let w ← word
    pure w.toNat

def u32 : RowCodec UInt32 where
  put x := [x.toUInt64]
  get := do
    let w ← word
    liftM (failIf (2 ^ 32 ≤ w.toNat) Error.invalidValue)
    pure w.toUInt32

def u8 : RowCodec UInt8 where
  put x := [x.toUInt64]
  get := do
    let w ← word
    liftM (failIf (2 ^ 8 ≤ w.toNat) Error.invalidValue)
    pure w.toUInt8

/-- The flag that a word stands for. -/
def boolOf (w : UInt64) : Except Error Bool :=
  if w = 0 then .ok false else if w = 1 then .ok true else .error .invalidValue

def bool : RowCodec Bool where
  put b := [if b then 1 else 0]
  get := do
    let w ← word
    liftM (boolOf w)

def f32 : RowCodec F32 where
  put x := u32.put x.bits
  get := do
    let bits ← u32.get
    pure ⟨bits⟩

theorem u64_readsBack (x : UInt64) : u64.ReadsBack x := word_reads x

theorem usize_readsBack {n : Nat} (h : n < 2 ^ 64) : usize.ReadsBack n := by
  refine (word_reads (.ofNat n)).bind_pure ?_
  exact UInt64.toNat_ofNat_of_lt' h

theorem u32_readsBack (x : UInt32) : u32.ReadsBack x := by
  show Reads u32.get ([x.toUInt64] ++ []) x
  refine (word_reads x.toUInt64).bind (.lift_bind (a := ()) ?_ ?_)
  · rw [failIf_eq_ok, UInt32.toNat_toUInt64]
    exact Nat.not_le_of_lt x.toNat_lt
  · rw [UInt32.toUInt32_toUInt64]
    exact .pure x

theorem u8_readsBack (x : UInt8) : u8.ReadsBack x := by
  show Reads u8.get ([x.toUInt64] ++ []) x
  refine (word_reads x.toUInt64).bind (.lift_bind (a := ()) ?_ ?_)
  · rw [failIf_eq_ok, UInt8.toNat_toUInt64]
    exact Nat.not_le_of_lt x.toNat_lt
  · rw [UInt8.toUInt8_toUInt64]
    exact .pure x

theorem bool_readsBack (b : Bool) : bool.ReadsBack b := by
  refine (word_reads _).bind_lift ?_
  cases b <;> rfl

theorem f32_readsBack (x : F32) : f32.ReadsBack x := (u32_readsBack x.bits).bind_pure rfl

/-! ## Options, lists and enumerations -/

/-- `Codec for Option`. -/
abbrev option {α : Type} (c : RowCodec α) : RowCodec (Option α) := Codec.option bool c

/-- `Codec for Vec`. -/
abbrev vec {α : Type} (c : RowCodec α) : RowCodec (List α) := Codec.list usize c .invalidDescriptor

/-- `enumeration!`: the ABI numbers are the places in the list. -/
abbrev enumeration {α : Type} [DecidableEq α] (values : List α) : RowCodec α :=
  Codec.enumeration usize values .invalidValue

section Combinators

variable {α : Type} {c : RowCodec α}

theorem option_readsBack {value : Option α} (h : ∀ a ∈ value, c.ReadsBack a) :
    (option c).ReadsBack value :=
  Codec.option_readsBack bool_readsBack h

theorem vec_reads {answer : α → α} {values : List α} (hlength : values.length < 2 ^ 64)
    (h : ∀ a ∈ values, Reads c.get (c.put a) (answer a)) (hput : ∀ a ∈ values, c.put a ≠ []) :
    Reads (vec c).get ((vec c).put values) (values.map answer) :=
  Codec.list_reads (usize_readsBack hlength) h hput

theorem vec_readsBack {values : List α} (hlength : values.length < 2 ^ 64)
    (h : ∀ a ∈ values, c.ReadsBack a) (hput : ∀ a ∈ values, c.put a ≠ []) :
    (vec c).ReadsBack values :=
  Codec.list_readsBack (usize_readsBack hlength) h hput

theorem enumeration_readsBack [DecidableEq α] {values : List α} {a : α} (h : a ∈ values)
    (hshort : values.length ≤ 2 ^ 64) : (enumeration values).ReadsBack a := by
  refine Codec.enumeration_readsBack (usize_readsBack ?_) h
  have := List.idxOf_lt_length_of_mem h
  omega

end Combinators

/-! ## Flags -/

/-- The flags of a set as the bits of a number, the first one lowest. -/
def flagWord : List Bool → Nat
  | [] => 0
  | flag :: rest => flag.toNat + 2 * flagWord rest

/-- The lowest `count` bits, and what is left. -/
def flagBits : (count : Nat) → Nat → List Bool × Nat
  | 0, bits => ([], bits)
  | count + 1, bits =>
    let rest := flagBits count (bits / 2)
    (decide (bits % 2 = 1) :: rest.1, rest.2)

/-- `flags!`: no bits but the flags may be set. -/
def flags (count : Nat) : RowCodec (List Bool) where
  put set := [.ofNat (flagWord set)]
  get := do
    let w ← word
    let bits := flagBits count w.toNat
    liftM (failIf (bits.2 ≠ 0) Error.invalidValue)
    pure bits.1

theorem flagBits_flagWord (set : List Bool) : flagBits set.length (flagWord set) = (set, 0) := by
  induction set with
  | nil => rfl
  | cons flag rest ih =>
    have hhalf : (flag.toNat + 2 * flagWord rest) / 2 = flagWord rest := by
      cases flag <;> simp only [Bool.toNat_true, Bool.toNat_false] <;> omega
    have hbit : decide ((flag.toNat + 2 * flagWord rest) % 2 = 1) = flag := by
      cases flag <;> simp only [Bool.toNat_true, Bool.toNat_false, decide_eq_true_eq,
        decide_eq_false_iff_not] <;> omega
    rw [List.length_cons, flagWord, flagBits, hhalf, ih, hbit]

theorem flagWord_lt (set : List Bool) : flagWord set < 2 ^ set.length := by
  induction set with
  | nil => exact Nat.one_pos
  | cons flag rest ih =>
    have hflag := Bool.toNat_lt flag
    rw [flagWord, List.length_cons, Nat.pow_succ]
    omega

theorem flags_reads {set : List Bool} (h : set.length ≤ 64) :
    (flags set.length).ReadsBack set := by
  have hlt : flagWord set < 2 ^ 64 :=
    Nat.lt_of_lt_of_le (flagWord_lt set) (Nat.pow_le_pow_right (by decide) h)
  show Reads (flags set.length).get ([.ofNat (flagWord set)] ++ []) set
  refine (word_reads _).bind ?_
  rw [UInt64.toNat_ofNat_of_lt' hlt, flagBits_flagWord]
  exact .lift_bind (a := ()) (failIf_eq_ok.mpr (not_not_intro rfl)) (.pure set)

theorem u64_canonical : u64.Canonical := by
  intro words rest x h
  cases words with
  | nil => cases h
  | cons first words =>
    cases h
    rfl

theorem flagBits_spec (count n : Nat) :
    (flagBits count n).1.length = count ∧
      n = flagWord (flagBits count n).1 + 2 ^ count * (flagBits count n).2 := by
  induction count generalizing n with
  | zero => exact ⟨rfl, by rw [flagBits, flagWord, Nat.pow_zero, Nat.zero_add, Nat.one_mul]⟩
  | succ count ih =>
    obtain ⟨hlength, hhalf⟩ := ih (n / 2)
    refine ⟨congrArg (· + 1) hlength, ?_⟩
    have hbit : (decide (n % 2 = 1)).toNat = n % 2 := by
      rcases Nat.mod_two_eq_zero_or_one n with h | h <;> rw [h] <;> rfl
    rw [flagBits, flagWord, hbit, Nat.pow_succ]
    generalize flagWord (flagBits count (n / 2)).1 = low at hhalf ⊢
    generalize (flagBits count (n / 2)).2 = high at hhalf ⊢
    rw [Nat.mul_comm (2 ^ count) 2, Nat.mul_assoc]
    omega

theorem flags_canonical {count : Nat} : (flags count).Canonical := by
  intro words rest set h
  obtain ⟨w, mid, hword, hset⟩ := Fallible.bind_eq_ok.mp h
  cases u64_canonical hword
  obtain ⟨_, hnone, hpure⟩ := Fallible.lift_bind_eq_ok.mp hset
  rw [failIf_eq_ok, not_not] at hnone
  obtain ⟨hlength, hspec⟩ := flagBits_spec count w.toNat
  cases hpure
  rw [hnone, Nat.mul_zero, Nat.add_zero] at hspec
  show [w] ++ rest = [.ofNat (flagWord (flagBits count w.toNat).1)] ++ rest
  rw [← hspec, UInt64.ofNat_toNat]

theorem flags_length {count : Nat} {words rest : List UInt64} {set : List Bool}
    (h : (flags count).get words = (.ok set, rest)) : set.length = count := by
  obtain ⟨w, mid, -, hset⟩ := Fallible.bind_eq_ok.mp h
  obtain ⟨_, -, hpure⟩ := Fallible.lift_bind_eq_ok.mp hset
  cases hpure
  exact (flagBits_spec count w.toNat).1

/-! ## Texts -/

/-- The words of `put_bytes`. -/
def packBytes (bytes : List UInt8) : List UInt64 :=
  (chunksOf 8 bytes).map fun chunk => .ofNat (fromLeBytes chunk)

/-- The loop of `get_bytes`: the last word gives as many bytes as are missing. -/
def unpackBytes : (missing : Nat) → List UInt64 → List UInt8
  | _, [] => []
  | missing, w :: rest => (toLeBytes 8 w.toNat).take (min missing 8) ++ unpackBytes (missing - 8) rest

/-- `put_bytes` and `get_bytes`. -/
def bytes : RowCodec (List UInt8) where
  put bytes := usize.put bytes.length ++ packBytes bytes
  get := do
    let length ← usize.get
    let words ← Reader.take ((length + 7) / 8) Error.invalidDescriptor
    pure (unpackBytes length words)

theorem packBytes_length (bytes : List UInt8) : (packBytes bytes).length = (bytes.length + 7) / 8 := by
  rw [packBytes, chunksOf, List.length_map, List.length_map, List.length_range]
  rfl

theorem unpackBytes_packBytes (bytes : List UInt8) :
    unpackBytes bytes.length (packBytes bytes) = bytes := by
  induction hlength : bytes.length using Nat.strongRecOn generalizing bytes with
  | ind length ih =>
    by_cases hempty : bytes = []
    · subst hempty
      rfl
    · have hpos := List.length_pos_iff.mpr hempty
      have hchunk : (bytes.take 8).length = min length 8 := by
        rw [List.length_take, Nat.min_comm, hlength]
      have hbase : 0 < 256 := by decide
      have hword : (UInt64.ofNat (fromLeBytes (bytes.take 8))).toNat = fromLeBytes (bytes.take 8) := by
        refine UInt64.toNat_ofNat_of_lt' (Nat.lt_of_lt_of_le (fromLeBytes_lt _) ?_)
        exact Nat.pow_le_pow_right hbase (hchunk ▸ Nat.min_le_right ..)
      have hdrop : (bytes.drop 8).length = length - 8 := by rw [List.length_drop, hlength]
      have hrest := ih (length - 8) (by omega) (bytes.drop 8) hdrop
      have hwidth : 0 < 8 := by decide
      rw [packBytes, chunksOf_cons hwidth hempty, List.map_cons, unpackBytes, hword, ← hchunk,
        toLeBytes_fromLeBytes (hchunk ▸ Nat.min_le_right ..)]
      exact (congrArg _ hrest).trans (List.take_append_drop 8 bytes)

theorem bytes_readsBack {data : List UInt8} (h : data.length < 2 ^ 64) : bytes.ReadsBack data := by
  refine (usize_readsBack h).bind (.bind_pure ?_ (unpackBytes_packBytes data))
  rw [← packBytes_length]
  exact .take

/-- `Codec for String`. -/
def text : RowCodec String where
  put s := bytes.put s.toByteArray.data.toList
  get := do
    let data ← bytes.get
    liftM (okOr (String.fromUTF8? ⟨data.toArray⟩) Error.invalidValue)

theorem text_readsBack {s : String} (h : s.utf8ByteSize < 2 ^ 64) : text.ReadsBack s := by
  have hlength : s.toByteArray.data.toList.length < 2 ^ 64 := h
  refine (bytes_readsBack hlength).bind_lift ?_
  rw [okOr_eq_ok, Array.toArray_toList]
  exact dif_pos s.isValidUTF8

end Sgfx.Abi
