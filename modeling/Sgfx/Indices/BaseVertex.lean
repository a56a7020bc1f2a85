import Mathlib.Data.List.Induction
import Sgfx.Indices.Extrema

/-!
# Base vertices

An indexed draw adds a signed base vertex to each of its indices.  Addition is monotone, so
the extrema of the indices say whether every sum is a vertex index, and the greatest one.

## Main Definitions

* `maximumWithBase` — from the extrema
* `eachWithBase` — index by index

## Main Results

* `maximumWithBase_eq_eachWithBase`
-/

namespace Sgfx.Indices

/-- `u32::try_from` of an `i64`; the bound is `2 ^ 32`. -/
def u32TryFrom (value : Int) : Except Error Nat :=
  if 0 ≤ value ∧ value < 4294967296 then .ok value.toNat else .error .outOfBounds

/-- `maximum_with_base`. -/
def maximumWithBase (bounds : IndexBounds) (baseVertex : Int32) : Except Error Nat :=
  match bounds with
  | none => .ok 0
  | some (minimum, maximum) => do
    let _ ← u32TryFrom (minimum + baseVertex.toInt)
    u32TryFrom (maximum + baseVertex.toInt)

/-- The indices that some bytes hold. -/
def rawIndices (bytes : List UInt8) (format : IndexFormat) : List Nat :=
  (chunksExact (width format) bytes).map Bytes.fromLeBytes

/-- The checks index by index, with the greatest sum so far. -/
def eachWithBase (baseVertex : Int32) (indices : List Nat) : Except Error Nat :=
  indices.foldlM (fun greatest (index : Nat) => do
    let sum ← u32TryFrom (index + baseVertex.toInt)
    return max greatest sum) 0

/-- Every sum is a vertex index. -/
def Fits (baseVertex : Int32) (indices : List Nat) : Prop :=
  ∀ index ∈ indices, 0 ≤ (index : Int) + baseVertex.toInt ∧
    (index : Int) + baseVertex.toInt < 4294967296

instance (baseVertex : Int32) (indices : List Nat) : Decidable (Fits baseVertex indices) :=
  inferInstanceAs (Decidable (∀ index ∈ indices, _))

/-- The greatest sum, zero if there is none. -/
def greatestSum (baseVertex : Int32) (indices : List Nat) : Nat :=
  (indices.map fun index : Nat => (index + baseVertex.toInt).toNat).foldl max 0

theorem fits_nil (baseVertex : Int32) : Fits baseVertex [] :=
  fun _ member => absurd member List.not_mem_nil

/-! ## One sum -/

theorem u32TryFrom_ok {value : Int} (h : 0 ≤ value) (hlt : value < 4294967296) :
    u32TryFrom value = .ok value.toNat := if_pos ⟨h, hlt⟩

theorem u32TryFrom_error {value : Int} (h : value < 0 ∨ 4294967296 ≤ value) :
    u32TryFrom value = .error .outOfBounds := by
  refine if_neg fun fits => ?_
  omega

/-! ## The greatest sum -/

theorem le_foldl_max {items : List Nat} {first item : Nat}
    (h : item ≤ first ∨ item ∈ items) : item ≤ items.foldl max first := by
  induction items generalizing first with
  | nil =>
    rcases h with h | h
    · exact h
    · cases h
  | cons next rest ih =>
    apply ih
    rcases h with h | h
    · exact .inl (Nat.le_trans h (Nat.le_max_left ..))
    · rcases List.mem_cons.mp h with rfl | later
      · exact .inl (Nat.le_max_right ..)
      · exact .inr later

theorem foldl_max_le {items : List Nat} {first bound : Nat} (hfirst : first ≤ bound)
    (h : ∀ item ∈ items, item ≤ bound) : items.foldl max first ≤ bound := by
  induction items generalizing first with
  | nil => exact hfirst
  | cons next rest ih =>
    apply ih
    · exact Nat.max_le.mpr ⟨hfirst, h next List.mem_cons_self⟩
    · intro item member
      exact h item (List.mem_cons_of_mem _ member)

/-! ## Extrema of indices -/

/-- The least and the greatest of some indices. -/
structure IsExtrema (indices : List Nat) (minimum maximum : Nat) : Prop where
  minimum_mem : minimum ∈ indices
  maximum_mem : maximum ∈ indices
  between : ∀ index ∈ indices, minimum ≤ index ∧ index ≤ maximum

/-- What `raw_index_bounds` finds: nothing, or the extrema. -/
theorem foldl_extend_spec (indices : List Nat) :
    (indices = [] ∧ indices.foldl extend none = none) ∨
      ∃ minimum maximum, indices.foldl extend none = some (minimum, maximum) ∧
        IsExtrema indices minimum maximum := by
  induction indices using List.reverseRecOn with
  | nil => exact .inl ⟨rfl, rfl⟩
  | append_singleton indices index ih =>
    right
    rw [List.foldl_append, List.foldl_cons, List.foldl_nil]
    rcases ih with ⟨rfl, hnone⟩ | ⟨minimum, maximum, hsome, hextrema⟩
    · rw [hnone]
      refine ⟨index, index, rfl, ⟨List.mem_singleton_self _, List.mem_singleton_self _, ?_⟩⟩
      intro other member
      rw [List.mem_singleton.mp member]
      exact ⟨Nat.le_refl _, Nat.le_refl _⟩
    · rw [hsome]
      refine ⟨min minimum index, max maximum index, rfl, ?_, ?_, ?_⟩
      · rw [List.mem_append, List.mem_singleton]
        rcases Nat.le_total minimum index with h | h
        · rw [Nat.min_eq_left h]
          exact .inl hextrema.minimum_mem
        · rw [Nat.min_eq_right h]
          exact .inr rfl
      · rw [List.mem_append, List.mem_singleton]
        rcases Nat.le_total maximum index with h | h
        · rw [Nat.max_eq_right h]
          exact .inr rfl
        · rw [Nat.max_eq_left h]
          exact .inl hextrema.maximum_mem
      · intro other member
        rcases List.mem_append.mp member with earlier | last
        · have := hextrema.between other earlier
          omega
        · rw [List.mem_singleton.mp last]
          omega

/-- Indices fit when their extrema do. -/
theorem IsExtrema.fits_iff {indices : List Nat} {minimum maximum : Nat} {baseVertex : Int32}
    (h : IsExtrema indices minimum maximum) :
    Fits baseVertex indices ↔
      0 ≤ minimum + baseVertex.toInt ∧ maximum + baseVertex.toInt < 4294967296 := by
  constructor
  · intro fits
    exact ⟨(fits minimum h.minimum_mem).1, (fits maximum h.maximum_mem).2⟩
  · intro ends index member
    have := h.between index member
    omega

theorem IsExtrema.greatestSum_eq {indices : List Nat} {minimum maximum : Nat}
    {baseVertex : Int32} (h : IsExtrema indices minimum maximum) :
    greatestSum baseVertex indices = (maximum + baseVertex.toInt).toNat := by
  apply Nat.le_antisymm
  · refine foldl_max_le (Nat.zero_le _) fun sum member => ?_
    obtain ⟨index, hindex, rfl⟩ := List.mem_map.mp member
    have := h.between index hindex
    omega
  · exact le_foldl_max (.inr (List.mem_map.mpr ⟨maximum, h.maximum_mem, rfl⟩))

/-! ## Both ways -/

/-- The checks of the extrema are the checks of all indices. -/
theorem maximumWithBase_eq (indices : List Nat) (baseVertex : Int32) :
    maximumWithBase (indices.foldl extend none) baseVertex =
      if Fits baseVertex indices then .ok (greatestSum baseVertex indices)
      else .error .outOfBounds := by
  rcases foldl_extend_spec indices with ⟨rfl, hnone⟩ | ⟨minimum, maximum, hsome, hextrema⟩
  · rw [hnone, if_pos (fits_nil baseVertex)]
    rfl
  · rw [hsome, hextrema.greatestSum_eq]
    have order := (hextrema.between minimum hextrema.minimum_mem).2
    -- A maximum that fits does not hide a minimum that underflows.
    by_cases hmin : 0 ≤ minimum + baseVertex.toInt
    · by_cases hmax : maximum + baseVertex.toInt < 4294967296
      · rw [if_pos (hextrema.fits_iff.mpr ⟨hmin, hmax⟩), maximumWithBase,
          u32TryFrom_ok hmin (by omega), u32TryFrom_ok (by omega) hmax]
        rfl
      · rw [if_neg (fun fits => hmax (hextrema.fits_iff.mp fits).2), maximumWithBase,
          u32TryFrom_error (.inr (Int.not_lt.mp hmax))]
        by_cases hlow : minimum + baseVertex.toInt < 4294967296
        · rw [u32TryFrom_ok hmin hlow]
          rfl
        · rw [u32TryFrom_error (.inr (Int.not_lt.mp hlow))]
          rfl
    · rw [if_neg (fun fits => hmin (hextrema.fits_iff.mp fits).1), maximumWithBase,
        u32TryFrom_error (.inl (Int.not_le.mp hmin))]
      rfl

theorem foldlM_withBase (baseVertex : Int32) (indices : List Nat) (greatest : Nat) :
    indices.foldlM (fun greatest (index : Nat) => do
        let sum ← u32TryFrom (index + baseVertex.toInt)
        return max greatest sum) greatest =
      if Fits baseVertex indices then
        .ok ((indices.map fun index : Nat => (index + baseVertex.toInt).toNat).foldl max greatest)
      else .error .outOfBounds := by
  induction indices generalizing greatest with
  | nil =>
    rw [if_pos (fits_nil baseVertex)]
    rfl
  | cons index rest ih =>
    rw [List.foldlM_cons]
    by_cases hindex : 0 ≤ index + baseVertex.toInt ∧ index + baseVertex.toInt < 4294967296
    · have hfits : Fits baseVertex (index :: rest) ↔ Fits baseVertex rest := by
        rw [Fits, List.forall_mem_cons]
        exact and_iff_right hindex
      rw [u32TryFrom_ok hindex.1 hindex.2]
      refine (ih _).trans ?_
      simp only [hfits, List.map_cons, List.foldl_cons]
    · rw [if_neg (fun fits => hindex (fits index List.mem_cons_self)),
        u32TryFrom_error (by omega)]
      rfl

theorem eachWithBase_eq (baseVertex : Int32) (indices : List Nat) :
    eachWithBase baseVertex indices =
      if Fits baseVertex indices then .ok (greatestSum baseVertex indices)
      else .error .outOfBounds :=
  foldlM_withBase baseVertex indices 0

/-- **The extrema decide.**  From the extrema of any bytes, with any base vertex,
`maximum_with_base` gives what the checks of each index give: it fails exactly when some
sum is no vertex index, and else returns the greatest sum. -/
theorem maximumWithBase_eq_eachWithBase (bytes : List UInt8) (format : IndexFormat)
    (baseVertex : Int32) :
    maximumWithBase (rawIndexBounds bytes format) baseVertex =
        eachWithBase baseVertex (rawIndices bytes format) ∧
      (maximumWithBase (rawIndexBounds bytes format) baseVertex = .error .outOfBounds ↔
        ∃ index ∈ rawIndices bytes format,
          (index : Int) + baseVertex.toInt < 0 ∨ 4294967296 ≤ (index : Int) + baseVertex.toInt) ∧
      ∀ maximum, maximumWithBase (rawIndexBounds bytes format) baseVertex = .ok maximum ↔
        Fits baseVertex (rawIndices bytes format) ∧
          maximum = greatestSum baseVertex (rawIndices bytes format) := by
  have hbounds := maximumWithBase_eq (rawIndices bytes format) baseVertex
  change maximumWithBase (rawIndexBounds bytes format) baseVertex = _ at hbounds
  refine ⟨hbounds.trans (eachWithBase_eq ..).symm, ?_, fun maximum => ?_⟩
  · rw [hbounds]
    constructor
    · intro fails
      split at fails
      · cases fails
      · rename_i unfit
        rw [Fits] at unfit
        push Not at unfit
        obtain ⟨index, member, h⟩ := unfit
        refine ⟨index, member, ?_⟩
        omega
    · rintro ⟨index, member, outside⟩
      refine if_neg fun fits => ?_
      have := fits index member
      omega
  · rw [hbounds]
    constructor
    · intro accepted
      split at accepted
      · exact ⟨‹_›, (Except.ok.inj accepted).symm⟩
      · cases accepted
    · rintro ⟨fits, rfl⟩
      exact if_pos fits

end Sgfx.Indices
